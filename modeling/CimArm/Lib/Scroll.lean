import Mathlib.Logic.Function.Iterate
import Mathlib.Data.Nat.ModEq
import Mathlib.Tactic.SplitIfs

/-!
# A window over positions

Positions in a row or in a circle have a next and a previous one.  A window begins at a position
and goes so many steps on; it shows what it passes before its end.  When the selected position
leaves the window it is moved to begin with it or to end with it (`reframe`), and so it shows it
(`shows_reframe`).
-/

namespace CimArm.Scroll

open Function

variable (circular : Bool) (count : Nat)

def next (k : Nat) : Nat := if circular then (k + 1) % count else min (k + 1) (count - 1)

def prev (k : Nat) : Nat := if circular then (k + count - 1) % count else k - 1

/-- The window from `top` on, with so many steps, shows the position. -/
def Shows (steps top selected : Nat) : Prop :=
  ∃ j ≤ steps, (next circular count)^[j] top = selected ∧
    ∀ i < j, (next circular count)^[i] top ≠ (next circular count)^[steps] top

/-- Where the window from `top` to `bottom` is moved to. -/
def reframe (steps selected top bottom : Nat) : Nat :=
  if bottom < selected then (prev circular count)^[steps] selected
  else if selected < top then selected
  else top

variable {circular : Bool} {count : Nat}

theorem next_lt (some : 0 < count) (k : Nat) : next circular count k < count := by
  rw [next]
  split
  · exact Nat.mod_lt _ some
  · omega

variable {k selected top steps : Nat}

theorem prev_lt (within : k < count) : prev circular count k < count := by
  rw [prev]
  split
  · exact Nat.mod_lt _ (by omega)
  · omega

theorem iterate_next_lt (within : k < count) (n : Nat) : (next circular count)^[n] k < count := by
  induction n with
  | zero => exact within
  | succ n ih =>
    rw [iterate_succ_apply']
    exact next_lt (Nat.zero_lt_of_lt within) _

theorem iterate_prev_lt (within : k < count) (n : Nat) : (prev circular count)^[n] k < count := by
  induction n with
  | zero => exact within
  | succ n ih =>
    rw [iterate_succ_apply']
    exact prev_lt ih

/-! ## In a row -/

theorem iterate_next_row (within : k < count) (n : Nat) :
    (next false count)^[n] k = min (k + n) (count - 1) := by
  induction n with
  | zero => exact (Nat.min_eq_left (Nat.le_pred_of_lt within)).symm
  | succ n ih =>
    rw [iterate_succ_apply', ih, next, if_neg Bool.false_ne_true]
    omega

theorem iterate_prev_row (k n : Nat) : (prev false count)^[n] k = k - n := by
  induction n with
  | zero => rfl
  | succ n ih =>
    rw [iterate_succ_apply', ih, prev, if_neg Bool.false_ne_true]
    omega

/-! ## In a circle -/

theorem iterate_next_circle (within : k < count) (n : Nat) :
    (next true count)^[n] k = (k + n) % count := by
  induction n with
  | zero => exact (Nat.mod_eq_of_lt within).symm
  | succ n ih =>
    rw [iterate_succ_apply', ih, next, if_pos rfl, Nat.mod_add_mod, Nat.add_assoc]

theorem next_prev_circle (within : k < count) : next true count (prev true count k) = k := by
  rw [next, prev, if_pos rfl, if_pos rfl, Nat.mod_add_mod]
  have whole : k + count - 1 + 1 = k + count := by omega
  rw [whole, Nat.add_mod_right, Nat.mod_eq_of_lt within]

theorem iterate_next_prev_circle (within : k < count) (n : Nat) :
    (next true count)^[n] ((prev true count)^[n] k) = k := by
  induction n with
  | zero => rfl
  | succ n ih =>
    rw [iterate_succ_apply' (prev true count), iterate_succ_apply (next true count),
      next_prev_circle (iterate_prev_lt within n), ih]

/-! ## What a window shows -/

theorem shows_top (steps top : Nat) : Shows circular count steps top top :=
  ⟨0, Nat.zero_le _, rfl, fun i before => absurd before (Nat.not_lt_zero i)⟩

theorem shows_prev (within : selected < count) (steps : Nat) :
    Shows circular count steps ((prev circular count)^[steps] selected) selected := by
  cases circular with
  | false =>
    rw [iterate_prev_row]
    have low : selected - steps < count := by omega
    refine ⟨min steps selected, Nat.min_le_left _ _, ?_, ?_⟩
    · rw [iterate_next_row low]
      omega
    · intro i before
      rw [iterate_next_row low, iterate_next_row low]
      omega
  | true =>
    have some : 0 < count := Nat.zero_lt_of_lt within
    have back := iterate_next_prev_circle within steps
    have low : (prev true count)^[steps] selected < count := iterate_prev_lt within steps
    generalize (prev true count)^[steps] selected = top at back low
    rw [iterate_next_circle low] at back
    -- After as many steps as go round the circle the position comes again.
    refine ⟨steps % count, Nat.mod_le _ _, ?_, ?_⟩
    · rw [iterate_next_circle low, Nat.add_mod_mod, back]
    · intro i before
      rw [iterate_next_circle low, iterate_next_circle low, ← Nat.add_mod_mod top steps]
      have less : steps % count < count := Nat.mod_lt _ some
      intro same
      have equal : Nat.ModEq count i (steps % count) := Nat.ModEq.add_left_cancel' top same
      have := Nat.ModEq.eq_of_lt_of_lt equal (by omega) less
      omega

theorem shows_between (within : top < count) (from_ : top ≤ selected)
    (upTo : selected ≤ (next circular count)^[steps] top) :
    Shows circular count steps top selected := by
  have high : (next circular count)^[steps] top < count := iterate_next_lt within steps
  have bound : selected - top ≤ steps := by
    cases circular with
    | false =>
      rw [iterate_next_row within] at upTo
      omega
    | true =>
      rw [iterate_next_circle within] at upTo
      have := Nat.mod_le (top + steps) count
      omega
  have reach (i : Nat) (less : top + i < count) :
      (next circular count)^[i] top = top + i := by
    cases circular with
    | false =>
      rw [iterate_next_row within]
      omega
    | true => rw [iterate_next_circle within, Nat.mod_eq_of_lt less]
  refine ⟨selected - top, bound, ?_, ?_⟩
  · rw [reach _ (by omega)]
    omega
  · intro i before
    rw [reach i (by omega)]
    omega

theorem shows_reframe (within : selected < count) (topWithin : top < count) :
    Shows circular count steps
      (reframe circular count steps selected top ((next circular count)^[steps] top)) selected := by
  rw [reframe]
  split_ifs with below above
  · exact shows_prev within steps
  · exact shows_top steps selected
  · exact shows_between topWithin (Nat.not_lt.1 above) (Nat.not_lt.1 below)

theorem reframe_lt {bottom : Nat} (within : selected < count) (topWithin : top < count) :
    reframe circular count steps selected top bottom < count := by
  rw [reframe]
  split_ifs
  · exact iterate_prev_lt within steps
  · exact within
  · exact topWithin

end CimArm.Scroll
