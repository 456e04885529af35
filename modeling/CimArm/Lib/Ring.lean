import Mathlib.Data.Nat.ModEq

/-!
# Circular buffers

A circular buffer of `cap` slots keeps `n` elements from slot `first` on, wrapping from
the last slot to slot `0`.  `window` lists them in order.  The rules say what writing the
next free slot, advancing `first`, and reading the first or the last slot do to that
list; an index is taken modulo `cap`, so they hold wherever the window wraps.
-/

namespace CimArm.Ring

variable {α : Type} (slots : Nat → α) (cap : Nat)

/-- The `n` elements from slot `first` on. -/
def window (first : Nat) : Nat → List α
  | 0 => []
  | n + 1 => slots (first % cap) :: window (first + 1) n

variable (first n : Nat)

@[simp] theorem window_length : (window slots cap first n).length = n := by
  induction n generalizing first with
  | zero => rfl
  | succ n ih => simp only [window, List.length_cons, ih]

theorem window_mod : window slots cap (first % cap) n = window slots cap first n := by
  induction n generalizing first with
  | zero => rfl
  | succ n ih =>
    have next : window slots cap (first % cap + 1) n = window slots cap (first + 1) n := by
      rw [← ih (first % cap + 1), Nat.mod_add_mod, ih]
    simp only [window, Nat.mod_mod, next]

theorem window_congr {other : Nat → α} {cap : Nat} (same : ∀ i < cap, slots i = other i)
    (some : 0 < cap) : window slots cap first n = window other cap first n := by
  induction n generalizing first with
  | zero => rfl
  | succ n ih => rw [window, window, same _ (Nat.mod_lt _ some), ih]

theorem window_snoc : window slots cap first (n + 1) =
      window slots cap first n ++ [slots ((first + n) % cap)] := by
  induction n generalizing first with
  | zero => rfl
  | succ n ih =>
    rw [window, ih (first + 1)]
    simp only [window, List.cons_append, Nat.add_assoc, Nat.add_comm 1 n]

variable {cap}

theorem slot_succ {i : Nat} (unwrapped : (i + 1) % cap ≠ 0) : (i + 1) % cap = i % cap + 1 := by
  rw [← Nat.mod_add_mod] at unwrapped ⊢
  rcases Nat.eq_zero_or_pos cap with rfl | positive
  · rw [Nat.mod_zero]
  · have below : i % cap < cap := Nat.mod_lt i positive
    apply Nat.mod_eq_of_lt
    have notLast : i % cap + 1 ≠ cap := by
      intro wraps
      rw [wraps, Nat.mod_self] at unwrapped
      exact unwrapped rfl
    omega

theorem slot_ne {first i n : Nat} (before : i < n) (turn : n < cap) :
    (first + i) % cap ≠ (first + n) % cap := by
  intro same
  have congruent : i % cap = n % cap := Nat.ModEq.add_left_cancel' first same
  rw [Nat.mod_eq_of_lt turn, Nat.mod_eq_of_lt (Nat.lt_trans before turn)] at congruent
  exact Nat.ne_of_lt before congruent

theorem window_update {first free n : Nat} (x : α) (room : free < cap) (behind : n ≤ free) :
    window (Function.update slots ((first + free) % cap) x) cap first n =
      window slots cap first n := by
  induction n with
  | zero => rfl
  | succ n ih =>
    rw [window_snoc, window_snoc, ih (Nat.le_of_succ_le behind),
      Function.update_of_ne (slot_ne behind room)]

theorem window_push {first n : Nat} (x : α) (room : n < cap) :
    window (Function.update slots ((first + n) % cap) x) cap first (n + 1) =
      window slots cap first n ++ [x] := by
  rw [window_snoc, window_update slots x room (Nat.le_refl n), Function.update_self]

end CimArm.Ring
