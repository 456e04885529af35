import Mathlib.Tactic.Common

/-!
# The blocking queue without bound

`SyncQueue`: an ordered collection and a semaphore that counts its elements.  A call that finds
the semaphore at zero waits; `getElement` takes the semaphore, looks at the first element and
gives the semaphore back.
-/

namespace CimArm.Util

open List

variable {α : Type}

structure SyncQueue (α : Type) : Type where
  mySem : Nat
  myCollection : List α
  counted : mySem = myCollection.length

namespace SyncQueue

def new : SyncQueue α := ⟨0, [], rfl⟩

variable (self : SyncQueue α)

def pushElement (aBuffer : α) : SyncQueue α where
  mySem := self.mySem + 1
  myCollection := self.myCollection ++ [aBuffer]
  counted := by rw [self.counted, length_append, length_singleton]

theorem some_of_sem {self : SyncQueue α} (posted : self.mySem ≠ 0) : self.myCollection ≠ [] := by
  rw [self.counted] at posted
  exact ne_nil_of_length_pos (Nat.pos_of_ne_zero posted)

/-- The first element, or `none` if the call waits. -/
def getElement : Option α :=
  if posted : self.mySem ≠ 0 then some (self.myCollection.head (some_of_sem posted)) else none

/-- The first element and the queue without it, or `none` if the call waits. -/
def popElement : Option (α × SyncQueue α) :=
  if posted : self.mySem ≠ 0 then
    some (self.myCollection.head (some_of_sem posted),
      { mySem := self.mySem - 1
        myCollection := self.myCollection.tail
        counted := by rw [self.counted, length_tail] })
  else none

def getCount : Nat := self.myCollection.length

variable {self}

theorem getElement_eq : self.getElement = self.myCollection.head? := by
  rw [getElement]
  split
  · rename_i posted
    exact (List.head?_eq_some_head (some_of_sem posted)).symm
  · rename_i empty
    rw [not_not, self.counted] at empty
    rw [length_eq_zero_iff.1 empty]
    rfl

theorem popElement_cons {job : α} {rest : List α} (collection : self.myCollection = job :: rest) :
    self.popElement = some (job, ⟨rest.length, rest, rfl⟩) := by
  obtain ⟨mySem, myCollection, rfl⟩ := self
  cases collection
  rfl

end SyncQueue

end CimArm.Util
