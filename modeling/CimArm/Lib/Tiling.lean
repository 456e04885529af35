import Mathlib.Data.List.Basic
import Mathlib.Order.Basic

/-!
# Ranges that tile a list of marks

Successive ranges tile the marks from a start on when each begins after the end of
the one before, with no mark between them.  A mark below the end of the tiling is
then in exactly one range and any other in none (`Tiles.covering_eq`).
-/

namespace CimArm.Tiling

open List

structure Range : Type where
  first : Nat
  last : Nat
  deriving DecidableEq, Repr

def Range.Contains (self : Range) (m : Nat) : Prop := self.first ≤ m ∧ m ≤ self.last

instance (self : Range) (m : Nat) : Decidable (self.Contains m) :=
  inferInstanceAs (Decidable (_ ∧ _))

/-- The ranges follow one another from `start` on and leave no mark out between. -/
def Tiles (marks : List Nat) : Nat → List Range → Prop
  | _, [] => True
  | start, r :: rs => start ≤ r.first ∧ r.first ≤ r.last ∧
      (∀ m ∈ marks, start ≤ m → r.first ≤ m) ∧ Tiles marks (r.last + 1) rs

instance decidableTiles (marks : List Nat) :
    (start : Nat) → (rs : List Range) → Decidable (Tiles marks start rs)
  | _, [] => isTrue trivial
  | _, r :: rs =>
    have := decidableTiles marks (r.last + 1) rs
    inferInstanceAs (Decidable (_ ∧ _ ∧ _ ∧ _))

/-- Where the next range begins. -/
def boundary (start : Nat) (rs : List Range) : Nat :=
  match rs.getLast? with
  | some r => r.last + 1
  | none => start

@[simp] theorem boundary_nil (start : Nat) : boundary start [] = start := rfl

@[simp] theorem boundary_append (start : Nat) (rs : List Range) (r : Range) :
    boundary start (rs ++ [r]) = r.last + 1 := by
  simp [boundary]

theorem boundary_cons (start : Nat) (r : Range) (rs : List Range) :
    boundary start (r :: rs) = boundary (r.last + 1) rs := by
  cases rs with
  | nil => rfl
  | cons r' rs =>
    rw [boundary, boundary, List.getLast?_cons_cons, List.getLast?_eq_some_getLast (by simp)]

/-- How many of the ranges contain a mark. -/
def covering (rs : List Range) (m : Nat) : Nat := rs.countP fun r => r.Contains m

@[simp] theorem covering_nil (m : Nat) : covering [] m = 0 := rfl

theorem covering_cons (r : Range) (rs : List Range) (m : Nat) :
    covering (r :: rs) m = covering rs m + if r.Contains m then 1 else 0 := by
  simp [covering, countP_cons]

theorem covering_append (rs : List Range) (r : Range) (m : Nat) :
    covering (rs ++ [r]) m = covering rs m + if r.Contains m then 1 else 0 := by
  simp [covering, countP_append, countP_cons]

namespace Tiles

variable {marks : List Nat} {start : Nat} {rs : List Range}

theorem start_le_boundary (tiles : Tiles marks start rs) : start ≤ boundary start rs := by
  induction rs generalizing start with
  | nil => exact Nat.le_refl _
  | cons r rs ih =>
    obtain ⟨from_start, forward, -, rest⟩ := tiles
    have := ih rest
    rw [boundary_cons]
    omega

theorem append (tiles : Tiles marks start rs) {r : Range} (begins : boundary start rs ≤ r.first)
    (forward : r.first ≤ r.last)
    (reaches : ∀ m ∈ marks, boundary start rs ≤ m → r.first ≤ m) :
    Tiles marks start (rs ++ [r]) := by
  induction rs generalizing start with
  | nil => exact ⟨begins, forward, reaches, trivial⟩
  | cons r' rs ih =>
    obtain ⟨from_start, forward', reaches', rest⟩ := tiles
    rw [boundary_cons] at begins reaches
    exact ⟨from_start, forward', reaches', ih rest begins reaches⟩

theorem mark (tiles : Tiles marks start rs) {n : Nat} (beyond : boundary start rs ≤ n) :
    Tiles (marks ++ [n]) start rs := by
  induction rs generalizing start with
  | nil => trivial
  | cons r rs ih =>
    obtain ⟨from_start, forward, reaches, rest⟩ := tiles
    rw [boundary_cons] at beyond
    have after := rest.start_le_boundary
    refine ⟨from_start, forward, fun m hm above => ?_, ih rest beyond⟩
    rcases mem_append.1 hm with hm | hm
    · exact reaches m hm above
    · obtain rfl := mem_singleton.1 hm
      omega

theorem covering_before (tiles : Tiles marks start rs) {m : Nat} (before : m < start) :
    covering rs m = 0 := by
  induction rs generalizing start with
  | nil => rfl
  | cons r rs ih =>
    obtain ⟨from_start, forward, -, rest⟩ := tiles
    have outside : ¬ r.Contains m := fun inside => by
      have := inside.1
      omega
    rw [covering_cons, ih rest (by omega), if_neg outside]

theorem covering_eq (tiles : Tiles marks start rs) {m : Nat} (hm : m ∈ marks) (from_start : start ≤ m) :
    covering rs m = if m < boundary start rs then 1 else 0 := by
  induction rs generalizing start with
  | nil => simp [Nat.not_lt.2 from_start]
  | cons r rs ih =>
    obtain ⟨begins, forward, reaches, rest⟩ := tiles
    have above := reaches m hm from_start
    have after := rest.start_le_boundary
    rw [covering_cons, boundary_cons]
    rcases Nat.lt_or_ge r.last m with beyond | within
    · have outside : ¬ r.Contains m := fun inside => by
        have := inside.2
        omega
      rw [ih rest beyond, if_neg outside, Nat.add_zero]
    · have inside : r.Contains m := ⟨above, within⟩
      rw [rest.covering_before (by omega), if_pos inside, if_pos (by omega)]

end Tiles

end CimArm.Tiling
