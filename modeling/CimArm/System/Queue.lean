import CimArm.Lib.Ring
import CimArm.Lib.Simulation

/-!
# The queue

`queue.c`: a queue of at most `maxCount` elements in a circular buffer, with the index
of the first element, the index of the next free slot, and the number of elements.  The
buffer is memory the queue reads and writes by slot number, so a slot outside it has a
content too, the one the memory there happens to have.

The abstract queue is a list with a bound on its length.  Two operations break the
refinement.  `qRemove` without a destination does not look whether there is an element,
and counts one less on an empty queue, where its documentation promises the exception.
`qGetLastElement` reads the slot before `indexLast` without wrapping, so while the next
free slot is slot `0` it answers what stands before the buffer.  In every run without
those the queue is the list:

* `fifo_of_served`: the answers, the count and the elements are the list's.
-/

namespace CimArm.Util

open Trace Simulation

variable {α : Type}

/-! ## The queue of the source -/

/-- The exceptions of the queue. -/
inductive QueueExn : Type
  | queueIsFull
  | queueIsEmpty
  | invalidPointer
  deriving DecidableEq

/-- The queue; `buf` is its memory, slot by slot. -/
structure Queue (α : Type) : Type where
  indexFirst : Nat
  indexLast : Nat
  maxCount : Nat
  count : Int
  buf : Int → α

/-- A new queue in the memory that `malloc` returns. -/
def qNew (memory : Int → α) (maxCount : Nat) : Queue α := ⟨0, 0, maxCount, 0, memory⟩

def Queue.qIsEmpty (q : Queue α) : Bool := q.count == 0

def Queue.qAdd (q : Queue α) (element : α) : Except QueueExn α × Queue α :=
  if q.count = q.maxCount then (.error .queueIsFull, q)
  else
    (.ok element,
      { q with
        buf := Function.update q.buf q.indexLast element
        count := q.count + 1
        indexLast := (q.indexLast + 1) % q.maxCount })

/-- The element copied to the destination, when there is one. -/
def Queue.qGetElement (q : Queue α) (destination : Bool) : Except QueueExn (Option α) :=
  if q.qIsEmpty then .error .queueIsEmpty
  else if !destination then .error .invalidPointer
  else .ok (some (q.buf q.indexFirst))

def Queue.qGetLastElement (q : Queue α) (destination : Bool) : Except QueueExn (Option α) :=
  if q.qIsEmpty then .error .queueIsEmpty
  else if !destination then .error .invalidPointer
  else .ok (some (q.buf (q.indexLast - 1)))

/-- An exception of `qGetElement` leaves the queue as it is. -/
def Queue.qRemove (q : Queue α) (destination : Bool) : Except QueueExn (Option α) × Queue α :=
  match if destination then q.qGetElement destination else .ok none with
  | .error e => (.error e, q)
  | .ok element =>
    (.ok element,
      { q with count := q.count - 1, indexFirst := (q.indexFirst + 1) % q.maxCount })

/-- The operations on a queue, with or without a destination for the element. -/
inductive QueueOp (α : Type) : Type
  | add (element : α)
  | remove (destination : Bool)
  | getElement (destination : Bool)
  | getLastElement (destination : Bool)
  | isEmpty

/-- What an operation answers: an exception, the element it returns or copies (none
without a destination), or whether the queue is empty. -/
inductive QueueAnswer (α : Type) : Type
  | raised (e : QueueExn)
  | element (x : Option α)
  | flag (b : Bool)
  deriving DecidableEq

def QueueAnswer.of : Except QueueExn (Option α) → QueueAnswer α
  | .error e => .raised e
  | .ok x => .element x

def Queue.step : QueueOp α → Queue α → QueueAnswer α × Queue α
  | .add x, q => (QueueAnswer.of ((q.qAdd x).1.map some), (q.qAdd x).2)
  | .remove destination, q => (QueueAnswer.of (q.qRemove destination).1, (q.qRemove destination).2)
  | .getElement destination, q => (QueueAnswer.of (q.qGetElement destination), q)
  | .getLastElement destination, q => (QueueAnswer.of (q.qGetLastElement destination), q)
  | .isEmpty, q => (.flag q.qIsEmpty, q)

/-! ## The bounded list -/

/-- A first-in first-out list of at most `capacity` elements. -/
structure Fifo (α : Type) (capacity : Nat) : Type where
  items : List α
  bounded : items.length ≤ capacity

namespace Fifo

variable {capacity : Nat}

def empty : Fifo α capacity := ⟨[], Nat.zero_le _⟩

def push (f : Fifo α capacity) (x : α) (room : f.items.length < capacity) : Fifo α capacity :=
  ⟨f.items ++ [x], by simpa [Nat.succ_le_iff] using room⟩

def pop (f : Fifo α capacity) : Fifo α capacity :=
  ⟨f.items.tail, by have bounded := f.bounded; simp only [List.length_tail]; omega⟩

/-- The answer that looks at an element: nothing is there, or nowhere to copy it. -/
def peek (x : Option α) (destination : Bool) : QueueAnswer α :=
  match x with
  | none => .raised .queueIsEmpty
  | some x => if destination then .element (some x) else .raised .invalidPointer

def step : QueueOp α → Fifo α capacity → QueueAnswer α × Fifo α capacity
  | .add x, f =>
    if room : f.items.length < capacity then (.element (some x), f.push x room)
    else (.raised .queueIsFull, f)
  | .remove destination, f =>
    match f.items.head? with
    | none => (.raised .queueIsEmpty, f)
    | some x => (.element (if destination then some x else none), f.pop)
  | .getElement destination, f => (peek f.items.head? destination, f)
  | .getLastElement destination, f => (peek f.items.getLast? destination, f)
  | .isEmpty, f => (.flag f.items.isEmpty, f)

end Fifo

/-! ## The refinement -/

/-- The elements of the queue, first to last. -/
def Queue.elements (q : Queue α) : List α :=
  Ring.window (fun i => q.buf i) q.maxCount q.indexFirst q.count.toNat

/-- The queue keeps the list. -/
structure Represents {capacity : Nat} (q : Queue α) (f : Fifo α capacity) : Prop where
  maxCount : q.maxCount = capacity
  count : q.count = f.items.length
  first : q.indexFirst % capacity = q.indexFirst
  last : q.indexLast = (q.indexFirst + f.items.length) % capacity
  elements : Ring.window (fun i => q.buf i) capacity q.indexFirst f.items.length = f.items

/-- The operation meets no defect: an element is only dropped without a destination when
there is one, and the last element is only read when the free slot behind it is not slot
`0`. -/
def Served (q : Queue α) : QueueOp α → Prop
  | .remove destination => destination = true ∨ q.count ≠ 0
  | .getLastElement destination => destination = false ∨ q.count = 0 ∨ q.indexLast ≠ 0
  | _ => True

instance (q : Queue α) : (op : QueueOp α) → Decidable (Served q op)
  | .add _ | .getElement _ | .isEmpty => isTrue trivial
  | .remove _ => inferInstanceAs (Decidable (_ ∨ _))
  | .getLastElement _ => inferInstanceAs (Decidable (_ ∨ _ ∨ _))

namespace Represents

variable {capacity : Nat} {q : Queue α} {f : Fifo α capacity}

theorem qNew (memory : Int → α) (capacity : Nat) :
    Represents (qNew memory capacity) (Fifo.empty : Fifo α capacity) where
  maxCount := rfl
  count := rfl
  first := Nat.zero_mod capacity
  last := (Nat.zero_mod capacity).symm
  elements := rfl

theorem elements_eq (r : Represents q f) : q.elements = f.items := by
  unfold Queue.elements
  rw [r.maxCount, r.count, Int.toNat_natCast, r.elements]

theorem qIsEmpty (r : Represents q f) : q.qIsEmpty = f.items.isEmpty := by
  unfold Queue.qIsEmpty
  rw [r.count]
  cases f.items <;> rfl

variable {x : α} {rest : List α}

theorem slot_first (r : Represents q f) (items : f.items = x :: rest) : q.buf q.indexFirst = x ∧
      Ring.window (fun i => q.buf i) capacity (q.indexFirst + 1) rest.length = rest := by
  have elements := r.elements
  rw [items, List.length_cons, Ring.window, r.first] at elements
  exact List.cons.inj elements

/-- With an element in the queue and a free slot behind it that is not slot `0`, the
slot before that has the last one. -/
theorem slot_last (r : Represents q f) {front : List α} (items : f.items = front ++ [x])
    (unwrapped : q.indexLast ≠ 0) : q.buf ((q.indexLast : Int) - 1) = x := by
  have elements := r.elements
  have last := r.last
  rw [items, List.length_append, List.length_singleton] at elements last
  rw [Ring.window_snoc] at elements
  rw [← Nat.add_assoc] at last
  rw [last] at unwrapped
  have before : (q.indexLast : Int) - 1 = ((q.indexFirst + front.length) % capacity : Nat) := by
    rw [last, Ring.slot_succ unwrapped]
    omega
  rw [before]
  have both := List.append_inj' elements rfl
  simpa using both.2

theorem qGetElement (r : Represents q f) (destination : Bool) :
    QueueAnswer.of (q.qGetElement destination) = Fifo.peek f.items.head? destination := by
  unfold Queue.qGetElement
  rw [r.qIsEmpty]
  cases items : f.items with
  | nil => rfl
  | cons x rest => cases destination <;> simp [QueueAnswer.of, Fifo.peek, (r.slot_first items).1]

theorem qGetLastElement (r : Represents q f) (destination : Bool)
    (served : Served q (.getLastElement destination)) :
    QueueAnswer.of (q.qGetLastElement destination) = Fifo.peek f.items.getLast? destination := by
  unfold Queue.qGetLastElement
  rw [r.qIsEmpty]
  rcases f.items.eq_nil_or_concat with items | ⟨front, x, items⟩
  · rw [items]
    rfl
  · rw [List.concat_eq_append] at items
    have some : q.count ≠ 0 := by
      rw [r.count, items, List.length_append, List.length_singleton]
      omega
    cases destination with
    | false => simp [items, QueueAnswer.of, Fifo.peek]
    | true =>
      have unwrapped : q.indexLast ≠ 0 := by simpa [Served, some] using served
      simp [items, QueueAnswer.of, Fifo.peek, r.slot_last items unwrapped]

theorem push (r : Represents q f) (x : α) (room : f.items.length < capacity) :
    Represents { q with
      buf := Function.update q.buf q.indexLast x
      count := q.count + 1
      indexLast := (q.indexLast + 1) % q.maxCount } (f.push x room) where
  maxCount := r.maxCount
  count := by simp [Fifo.push, r.count]
  first := r.first
  last := by
    rw [r.maxCount, r.last, Nat.mod_add_mod]
    simp [Fifo.push, Nat.add_assoc]
  elements := by
    have written : (fun i : Nat => Function.update q.buf (q.indexLast : Int) x i) =
        Function.update (fun i : Nat => q.buf i) ((q.indexFirst + f.items.length) % capacity) x := by
      rw [← r.last]
      exact Function.update_comp_eq_of_injective q.buf Int.ofNat_injective q.indexLast x
    dsimp only [Fifo.push]
    rw [written, List.length_append, List.length_singleton, Ring.window_push _ x room, r.elements]

theorem retrieve (r : Represents q f) (items : f.items = x :: rest) (destination : Bool) :
    (if destination then q.qGetElement destination else .ok none) =
      (.ok (if destination then some x else none) : Except QueueExn (Option α)) := by
  cases destination with
  | false => rfl
  | true =>
    unfold Queue.qGetElement
    rw [r.qIsEmpty, items, (r.slot_first items).1]
    rfl

theorem pop (r : Represents q f) (items : f.items = x :: rest) :
    Represents { q with count := q.count - 1, indexFirst := (q.indexFirst + 1) % q.maxCount }
      f.pop where
  maxCount := r.maxCount
  count := by
    dsimp only [Fifo.pop]
    rw [r.count, items, List.length_cons, List.tail_cons]
    omega
  first := by rw [r.maxCount, Nat.mod_mod]
  last := by
    dsimp only [Fifo.pop]
    rw [r.maxCount, Nat.mod_add_mod, r.last, items, List.length_cons, List.tail_cons,
      Nat.add_right_comm, Nat.add_assoc]
  elements := by
    dsimp only [Fifo.pop]
    rw [r.maxCount, Ring.window_mod, items, List.tail_cons, (r.slot_first items).2]

theorem qAdd (r : Represents q f) (x : α) :
    Agree Queue.step Fifo.step Represents (.add x) q f := by
  have full : (q.count = q.maxCount) ↔ ¬ f.items.length < capacity := by
    have bounded := f.bounded
    rw [r.count, r.maxCount]
    omega
  by_cases room : f.items.length < capacity
  · have notFull : ¬ q.count = q.maxCount := fun h => full.mp h room
    refine ⟨?_, ?_⟩
    · simp [Queue.step, Queue.qAdd, Fifo.step, notFull, room, QueueAnswer.of, Except.map]
    · simp only [next, Queue.step, Queue.qAdd, Fifo.step, notFull, room, if_false, dite_true]
      exact r.push x room
  · have isFull := full.mpr room
    refine ⟨?_, ?_⟩
    · simp [Queue.step, Queue.qAdd, Fifo.step, isFull, room, QueueAnswer.of, Except.map]
    · simp only [next, Queue.step, Queue.qAdd, Fifo.step, isFull, room, if_true, dite_false]
      exact r

theorem qRemove (r : Represents q f) (destination : Bool)
    (served : Served q (.remove destination)) :
    Agree Queue.step Fifo.step Represents (.remove destination) q f := by
  cases items : f.items with
  | nil =>
    have empty : q.count = 0 := by
      rw [r.count, items]
      rfl
    have given : destination = true := by simpa [Served, empty] using served
    subst given
    refine ⟨?_, ?_⟩
    · simp [Queue.step, Queue.qRemove, Queue.qGetElement, Queue.qIsEmpty, empty, Fifo.step, items,
        QueueAnswer.of]
    · simpa [next, Queue.step, Queue.qRemove, Queue.qGetElement, Queue.qIsEmpty, empty, Fifo.step,
        items] using r
  | cons x rest =>
    have retrieved := r.retrieve items destination
    have popped := r.pop items
    refine ⟨?_, ?_⟩
    · simp [Queue.step, Queue.qRemove, retrieved, Fifo.step, items, QueueAnswer.of]
    · simpa [next, Queue.step, Queue.qRemove, retrieved, Fifo.step, items] using popped

theorem step (r : Represents q f) {op : QueueOp α} (served : Served q op) :
    Agree Queue.step Fifo.step Represents op q f := by
  cases op with
  | add x => exact r.qAdd x
  | remove destination => exact r.qRemove destination served
  | getElement destination => exact ⟨r.qGetElement destination, r⟩
  | getLastElement destination => exact ⟨r.qGetLastElement destination served, r⟩
  | isEmpty => exact ⟨congrArg QueueAnswer.flag r.qIsEmpty, r⟩

end Represents

/-- **The queue is a bounded first-in first-out list**: in every run that meets no defect
the answers are the list's, and at its end the count and the elements are too. -/
theorem fifo_of_served (memory : Int → α) (capacity : Nat) (ops : List (QueueOp α))
    (served : Always (next Queue.step) Served ops (qNew memory capacity)) :
    let q := after (next Queue.step) ops (qNew memory capacity)
    let f : Fifo α capacity := after (next Fifo.step) ops Fifo.empty
    outputs Queue.step ops (qNew memory capacity) =
        outputs Fifo.step ops (Fifo.empty : Fifo α capacity) ∧
      q.count = f.items.length ∧ q.elements = f.items := by
  have start : Represents (qNew memory capacity) (Fifo.empty : Fifo α capacity) :=
    .qNew memory capacity
  have kept := after_related (R := Represents) (fun r ok => r.step ok) start served
  exact ⟨outputs_eq (R := Represents) (fun r ok => r.step ok) start served, kept.count,
    kept.elements_eq⟩

/-- A run that fills the queue, wraps, and empties it. -/
theorem fifo_of_served_wrapped :
    outputs Queue.step
        [.add 7, .add 8, .remove false, .add 9, .getLastElement true, .add 4, .remove true,
          .remove true, .remove true]
        (qNew (fun _ => 0) 2) =
      outputs Fifo.step
        [.add 7, .add 8, .remove false, .add 9, .getLastElement true, .add 4, .remove true,
          .remove true, .remove true]
        (Fifo.empty : Fifo Nat 2) :=
  (fifo_of_served (fun _ => 0) 2 _ (by decide)).1

/-- Dropping from an empty queue without a destination leaves a count of `-1`. -/
theorem not_fifo :
    ¬ (∀ (memory : Int → Nat) (capacity : Nat) (ops : List (QueueOp Nat)),
      outputs Queue.step ops (qNew memory capacity) =
          outputs Fifo.step ops (Fifo.empty : Fifo Nat capacity) ∧
        (after (next Queue.step) ops (qNew memory capacity)).count =
          (after (next Fifo.step) ops (Fifo.empty : Fifo Nat capacity)).items.length) := by
  intro fifo
  have dropped := (fifo (fun _ => 0) 2 [.remove false]).2
  exact absurd dropped (by decide)

/-- The last element read at the wrap is what stands before the buffer. -/
example : outputs Queue.step [.add 7, .add 8, .getLastElement true] (qNew (fun _ => 0) 2) =
    [.element (some 7), .element (some 8), .element (some 0)] := by
  decide

end CimArm.Util
