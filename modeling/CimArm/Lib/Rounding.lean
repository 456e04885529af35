import Mathlib.Algebra.Order.Group.Unbundled.Int
import Mathlib.Algebra.Order.Ring.Abs
import Mathlib.Tactic.Linarith
import Mathlib.Tactic.Ring

/-!
# Rounding to multiples of a unit

A number is rounded to the next multiple of a unit or to the last one, as a rule says of what it
has beyond the last one.  A function of the magnitude is taken to the negative numbers by
reflection.  Both keep the order, and what they do once they do no more.
-/

namespace CimArm.Rounding

/-- The next multiple of the unit, or the last one. -/
def step (unit : Int) (up : Int → Bool) (m : Int) : Int :=
  if up (m % unit) then m + (unit - m % unit) else m - m % unit

/-- On the other side of zero as on this one. -/
def mirror (f : Int → Int) (n : Int) : Int := if n < 0 then -f (-n) else f n

/-- A multiple stays, and what is rounded up stays so when there is more of it. -/
structure Rule (unit : Int) (up : Int → Bool) : Prop where
  positive : 0 < unit
  zero : up 0 = false
  mono : ∀ r s, 0 ≤ r → r ≤ s → s < unit → up r = true → up s = true

section

variable {unit : Int} {up : Int → Bool} (rule : Rule unit up)

theorem dvd_step (m : Int) : unit ∣ step unit up m := by
  have last : unit ∣ m - m % unit := Int.dvd_self_sub_emod
  rw [step]
  by_cases ups : up (m % unit) = true
  · rw [if_pos ups]
    have next : m + (unit - m % unit) = m - m % unit + unit := by ring
    rw [next]
    exact dvd_add last (dvd_refl unit)
  · rwa [if_neg ups]

include rule

theorem step_of_dvd {m : Int} (multiple : unit ∣ m) : step unit up m = m := by
  rw [step, Int.emod_eq_zero_of_dvd multiple, rule.zero]
  exact Int.sub_zero m

theorem step_bounds (m : Int) :
    m - m % unit ≤ step unit up m ∧ step unit up m ≤ m - m % unit + unit := by
  have positive := rule.positive
  rw [step]
  split
  · exact ⟨by omega, by omega⟩
  · exact ⟨by omega, by omega⟩

theorem abs_step_sub_lt (m : Int) : |step unit up m - m| < unit := by
  have low := Int.emod_nonneg m (Int.ne_of_gt rule.positive)
  have high := Int.emod_lt_of_pos m rule.positive
  rw [abs_lt, step]
  by_cases ups : up (m % unit) = true
  · have some : m % unit ≠ 0 := by
      intro none
      rw [none, rule.zero] at ups
      cases ups
    rw [if_pos ups]
    exact ⟨by omega, by omega⟩
  · rw [if_neg ups]
    exact ⟨by omega, by omega⟩

theorem step_mono {m n : Int} (le : m ≤ n) : step unit up m ≤ step unit up n := by
  have positive := rule.positive
  have lowM := step_bounds rule m
  have lowN := step_bounds rule n
  have partsM := Int.emod_add_mul_ediv m unit
  have partsN := Int.emod_add_mul_ediv n unit
  rcases Int.lt_or_eq_of_le (Int.ediv_le_ediv positive le) with before | same
  · -- The multiple behind the one is not behind the other.
    have apart : unit * (m / unit) + unit ≤ unit * (n / unit) := by
      have next : unit * (m / unit + 1) ≤ unit * (n / unit) :=
        Int.mul_le_mul_of_nonneg_left before (Int.le_of_lt positive)
      rwa [Int.mul_add, Int.mul_one] at next
    omega
  · rw [← same] at partsN
    have rest : m % unit ≤ n % unit := by omega
    have low := Int.emod_nonneg m (Int.ne_of_gt positive)
    have high := Int.emod_lt_of_pos n positive
    by_cases ups : up (m % unit) = true
    · have also := rule.mono _ _ low rest high ups
      rw [step, step, if_pos ups, if_pos also]
      omega
    · rw [step, if_neg ups]
      omega

theorem step_nonneg {m : Int} (nonneg : 0 ≤ m) : 0 ≤ step unit up m := by
  have first := step_mono rule nonneg
  rwa [step_of_dvd rule (dvd_zero unit)] at first

end

/-! ## Reflection -/

section

variable {f : Int → Int}

theorem mirror_neg (zero : f 0 = 0) (n : Int) : mirror f (-n) = -mirror f n := by
  rw [mirror, mirror, neg_neg]
  rcases Int.lt_trichotomy n 0 with negative | rfl | positive
  · rw [if_neg (by omega), if_pos negative, neg_neg]
  · rw [neg_zero, if_neg (Int.lt_irrefl 0), zero, neg_zero]
  · rw [if_pos (by omega), if_neg (by omega)]

theorem mirror_mono (zero : f 0 = 0) (mono : ∀ m n, 0 ≤ m → m ≤ n → f m ≤ f n) {v w : Int}
    (le : v ≤ w) : mirror f v ≤ mirror f w := by
  rw [mirror, mirror]
  by_cases negV : v < 0
  · have first := mono 0 (-v) (Int.le_refl 0) (by omega)
    rw [zero] at first
    rw [if_pos negV]
    by_cases negW : w < 0
    · rw [if_pos negW]
      exact Int.neg_le_neg (mono _ _ (by omega) (by omega))
    · have second := mono 0 w (Int.le_refl 0) (by omega)
      rw [zero] at second
      rw [if_neg negW]
      omega
  · rw [if_neg negV, if_neg (by omega)]
    exact mono v w (by omega) le

theorem abs_mirror_sub (n : Int) : |mirror f n - n| = |f (|n|) - (|n|)| := by
  rw [mirror]
  by_cases negative : n < 0
  · rw [if_pos negative, abs_of_neg negative, ← abs_neg]
    congr 1
    ring
  · rw [if_neg negative, abs_of_nonneg (by omega : 0 ≤ n)]

theorem abs_mirror (nonneg : ∀ m, 0 ≤ m → 0 ≤ f m) (n : Int) : |mirror f n| = f |n| := by
  rw [mirror]
  by_cases negative : n < 0
  · rw [if_pos negative, abs_of_neg negative, abs_neg, abs_of_nonneg (nonneg _ (by omega))]
  · rw [if_neg negative, abs_of_nonneg (by omega : 0 ≤ n), abs_of_nonneg (nonneg n (by omega))]

theorem dvd_mirror {unit : Int} (multiple : ∀ m, unit ∣ f m) (n : Int) : unit ∣ mirror f n := by
  rw [mirror]
  split
  · exact (multiple _).neg_right
  · exact multiple n

theorem mirror_of_dvd {unit n : Int} (fixed : ∀ m, unit ∣ m → f m = m) (multiple : unit ∣ n) :
    mirror f n = n := by
  rw [mirror]
  split
  · rw [fixed _ multiple.neg_right, neg_neg]
  · exact fixed n multiple

end

end CimArm.Rounding
