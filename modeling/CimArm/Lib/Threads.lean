import Mathlib.Algebra.BigOperators.Group.Finset.Basic
import Mathlib.Algebra.BigOperators.Group.Finset.Piecewise
import Mathlib.Algebra.Order.BigOperators.Group.Finset
import Mathlib.Data.Fintype.BigOperators

/-!
# Threads and a lock

Finitely many threads, each at a place of its program.  A lock belongs to the one thread that is
at a place inside its critical section (`Owned`), and what the threads have under way is added
up over their places (`total`).
-/

namespace CimArm.Threads

open Function

variable {T P : Type} {pc : T → P} {t : T} {p : P}

/-! ## A lock -/

/-- The lock belongs to the thread that is inside, and is free when none is. -/
def Owned (inside : P → Prop) (owner : Option T) (pc : T → P) : Prop :=
  ∀ t, inside (pc t) ↔ owner = some t

variable {inside : P → Prop} {owner : Option T}

theorem Owned.free (owned : Owned inside owner pc) (outside : ∀ t, ¬ inside (pc t)) :
    owner = none :=
  Option.eq_none_iff_forall_ne_some.2 fun t same => outside t ((owned t).2 same)

variable [DecidableEq T]

theorem Owned.enter (owned : Owned inside none pc) (enters : inside p) :
    Owned inside (some t) (Function.update pc t p) := by
  intro u
  rcases eq_or_ne u t with rfl | other
  · rw [update_self]
    exact iff_of_true enters rfl
  · rw [update_of_ne other]
    refine iff_of_false (fun here => Option.some_ne_none u ((owned u).1 here).symm) fun same => ?_
    exact other (Option.some.inj same).symm

theorem Owned.leave (owned : Owned inside owner pc) (here : inside (pc t)) (leaves : ¬ inside p) :
    Owned inside none (Function.update pc t p) := by
  intro u
  refine iff_of_false (fun there => ?_) (Option.some_ne_none u).symm
  rcases eq_or_ne u t with rfl | other
  · rw [update_self] at there
    exact leaves there
  · rw [update_of_ne other] at there
    have first := (owned t).1 here
    have second := (owned u).1 there
    exact other (Option.some.inj (second.symm.trans first))

theorem Owned.stay (owned : Owned inside owner pc) (same : inside p ↔ inside (pc t)) :
    Owned inside owner (Function.update pc t p) := by
  intro u
  rcases eq_or_ne u t with rfl | other
  · rw [update_self]
    exact same.trans (owned u)
  · rw [update_of_ne other]
    exact owned u

/-! ## What is under way -/

section total

variable {T P : Type} [Fintype T] {pc : T → P} {weight : P → Nat}

/-- The sum over the places of all threads. -/
def total (weight : P → Nat) (pc : T → P) : Nat := ∑ t, weight (pc t)

theorem le_total (weight : P → Nat) (pc : T → P) (t : T) : weight (pc t) ≤ total weight pc :=
  Finset.single_le_sum (f := fun u => weight (pc u)) (fun _ _ => Nat.zero_le _)
    (Finset.mem_univ t)

theorem total_eq_zero (none : ∀ t, weight (pc t) = 0) : total weight pc = 0 :=
  Finset.sum_eq_zero fun t _ => none t

theorem total_update [DecidableEq T] (weight : P → Nat) (pc : T → P) (t : T) (p : P) :
    total weight (Function.update pc t p) + weight (pc t) = total weight pc + weight p := by
  have moved : total weight (Function.update pc t p) =
      weight p + ∑ u ∈ Finset.univ.erase t, weight (pc u) := by
    rw [total, ← Finset.add_sum_erase _ _ (Finset.mem_univ t), update_self]
    congr 1
    refine Finset.sum_congr rfl fun u hu => ?_
    rw [update_of_ne (Finset.ne_of_mem_erase hu)]
  have before : total weight pc = weight (pc t) + ∑ u ∈ Finset.univ.erase t, weight (pc u) :=
    (Finset.add_sum_erase _ (fun u => weight (pc u)) (Finset.mem_univ t)).symm
  omega

end total

end CimArm.Threads
