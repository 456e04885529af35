import CimArm.Lib.Rounding
import CimArm.System.Money
import CimArm.System.Muldiv

/-!
# Rounding of amounts

`roundTo` takes the magnitude of an amount, rounds it to a multiple of the unit of the last
decimal to keep, and gives it back its sign.  With all decimals kept the unit is 1 and half of it
is zero, but then there is never a remainder.

* `roundTo_laws`: as long as no sum leaves the 64 bits, the result is the multiple of the unit
  that the round type asks for, and rounding is odd, monotone and idempotent.
-/

namespace CimArm.Round

open Muldiv Money Rounding

/-! ## The function -/

inductive RoundType : Type
  | notDefined
  | normal
  | up
  | down
  | half
  deriving DecidableEq

/-- The part of `roundTo` that rounds the magnitude. -/
def roundUnsigned (lvalue qdec : Int) (roundType : RoundType) : Except Fault Int :=
  let remainder := lvalue.tmod qdec
  if (roundType = .up ∨ roundType = .normal ∧ remainder ≥ qdec.tdiv 2) ∧ remainder ≠ 0 then
    do checked (lvalue + (← checked (qdec - remainder)))
  else checked (lvalue - remainder)

def roundTo (value decimals : Int) (roundType : RoundType) : Except Fault Int := do
  let qdec := Money.llpow 10 (MONEY_DECIMAL_DIGITS - decimals)
  let lvalue ← if value < 0 then checked (0 - value) else .ok value
  let lvalue ← roundUnsigned lvalue qdec roundType
  if value < 0 then checked (0 - lvalue) else .ok lvalue

/-! ## What it is for -/

/-- What an amount is rounded to a multiple of. -/
def unit (decimals : Int) : Int := 10 ^ (MONEY_DECIMAL_DIGITS - decimals).toNat

/-- The laws of rounding, for the amounts for which there is a result. -/
structure Laws (decimals : Int) (roundType : RoundType) : Prop where
  multiple : ∀ v r, Fits v → roundTo v decimals roundType = .ok r → unit decimals ∣ r
  near : ∀ v r, Fits v → roundTo v decimals roundType = .ok r → |r - v| < unit decimals
  nearest : roundType = .normal → ∀ v r, Fits v → roundTo v decimals roundType = .ok r →
    2 * |r - v| ≤ unit decimals
  fixed : ∀ v r, Fits v → unit decimals ∣ v → roundTo v decimals roundType = .ok r → r = v
  odd : ∀ v r, Fits v → roundTo v decimals roundType = .ok r →
    roundTo (-v) decimals roundType = .ok (-r)
  monotone : ∀ v w r s, Fits v → Fits w → v ≤ w → roundTo v decimals roundType = .ok r →
    roundTo w decimals roundType = .ok s → r ≤ s
  idempotent : ∀ v r, Fits v → roundTo v decimals roundType = .ok r →
    roundTo r decimals roundType = .ok r
  up : roundType = .up → ∀ v r, Fits v → roundTo v decimals roundType = .ok r → |v| ≤ |r|
  down : roundType = .down → ∀ v r, Fits v → roundTo v decimals roundType = .ok r → |r| ≤ |v|

/-! ## Rounding of the magnitude -/

/-- Whether what is beyond the last multiple is rounded up. -/
def ups (unit : Int) (roundType : RoundType) (remainder : Int) : Bool :=
  decide ((roundType = .up ∨ roundType = .normal ∧ remainder ≥ unit.tdiv 2) ∧ remainder ≠ 0)

def magnitude (unit : Int) (roundType : RoundType) (m : Int) : Int :=
  step unit (ups unit roundType) m

theorem rule {unit : Int} (positive : 0 < unit) (roundType : RoundType) :
    Rule unit (ups unit roundType) := by
  refine ⟨positive, by simp [ups], ?_⟩
  intro r s nonneg le _ goesUp
  rw [ups, decide_eq_true_iff] at goesUp ⊢
  obtain ⟨asked, some⟩ := goesUp
  refine ⟨?_, by omega⟩
  rcases asked with always | ⟨normal, enough⟩
  · exact .inl always
  · exact .inr ⟨normal, Int.le_trans enough le⟩

theorem magnitude_zero {unit : Int} (positive : 0 < unit) (roundType : RoundType) :
    magnitude unit roundType 0 = 0 :=
  step_of_dvd (rule positive roundType) (dvd_zero unit)

theorem magnitude_nearest {unit : Int} (positive : 0 < unit) (even : unit = 1 ∨ 2 ∣ unit)
    (m : Int) : 2 * |magnitude unit .normal m - m| ≤ unit := by
  have low := Int.emod_nonneg m (Int.ne_of_gt positive)
  have high := Int.emod_lt_of_pos m positive
  have half : unit.tdiv 2 = unit / 2 := Int.tdiv_eq_ediv_of_nonneg (Int.le_of_lt positive)
  have bound : |magnitude unit .normal m - m| ≤ unit / 2 := by
    rw [abs_le, magnitude, step]
    by_cases goesUp : ups unit .normal (m % unit) = true
    · rw [if_pos goesUp]
      rw [ups, decide_eq_true_iff, half] at goesUp
      have enough : m % unit ≥ unit / 2 := by simpa using goesUp.1
      exact ⟨by omega, by omega⟩
    · rw [if_neg goesUp]
      rw [ups, decide_eq_true_iff, half] at goesUp
      have few : m % unit ≤ unit / 2 := by
        by_contra more
        apply goesUp
        exact ⟨.inr ⟨rfl, by omega⟩, by omega⟩
      exact ⟨by omega, by omega⟩
  omega

theorem le_magnitude_up {unit : Int} (positive : 0 < unit) (m : Int) :
    m ≤ magnitude unit .up m := by
  have high := Int.emod_lt_of_pos m positive
  rw [magnitude, step]
  by_cases goesUp : ups unit .up (m % unit) = true
  · rw [if_pos goesUp]
    omega
  · rw [if_neg goesUp]
    have none : m % unit = 0 := by
      by_contra some
      apply goesUp
      rw [ups, decide_eq_true_iff]
      exact ⟨.inl rfl, some⟩
    omega

theorem magnitude_down_le {unit : Int} (positive : 0 < unit) (m : Int) :
    magnitude unit .down m ≤ m := by
  have low := Int.emod_nonneg m (Int.ne_of_gt positive)
  have stays : ups unit .down (m % unit) = false := by simp [ups]
  rw [magnitude, step, stays, if_neg Bool.false_ne_true]
  omega

/-! ## The function rounds the magnitude -/

theorem fits_of_lt {m : Int} (nonneg : 0 ≤ m) (small : m < 2 ^ 63) : Fits m :=
  ⟨by omega, small⟩

theorem round_magnitude {unit m : Int} (positive : 0 < unit) (small : unit < 2 ^ 63)
    (nonneg : 0 ≤ m) (roundType : RoundType) :
    roundUnsigned m unit roundType = checked (magnitude unit roundType m) := by
  have low := Int.emod_nonneg m (Int.ne_of_gt positive)
  have high := Int.emod_lt_of_pos m positive
  have rest : checked (unit - m % unit) = .ok (unit - m % unit) :=
    checked_of_fits (fits_of_lt (by omega) (by omega))
  rw [roundUnsigned, Int.tmod_eq_emod_of_nonneg nonneg, rest, ok_bind, magnitude, step, ups]
  simp only [decide_eq_true_eq]
  split <;> rfl

section

variable {decimals : Int} (high : decimals ≤ MONEY_DECIMAL_DIGITS)

theorem unit_pos (decimals : Int) : 0 < unit decimals := by
  rw [unit]
  positivity

theorem unit_even (decimals : Int) : unit decimals = 1 ∨ 2 ∣ unit decimals := by
  rw [unit]
  cases (MONEY_DECIMAL_DIGITS - decimals).toNat with
  | zero => exact .inl (pow_zero 10)
  | succ k =>
    rw [pow_succ]
    exact .inr (Dvd.dvd.mul_left (by decide) _)

include high

theorem llpow_eq_unit : Money.llpow 10 (MONEY_DECIMAL_DIGITS - decimals) = unit decimals := by
  rw [Money.llpow, if_neg (by decide), if_pos (by omega), unit]

theorem unit_lt (low : 0 ≤ decimals) : unit decimals < 2 ^ 63 := by
  have few : (MONEY_DECIMAL_DIGITS - decimals).toNat ≤ 7 := by
    have all : (MONEY_DECIMAL_DIGITS : Int) = 7 := rfl
    omega
  have le : unit decimals ≤ 10 ^ 7 := by
    rw [unit]
    exact pow_le_pow_right₀ (by decide) few
  omega

theorem roundTo_iff (low : 0 ≤ decimals) {v : Int} (fits : Fits v) (roundType : RoundType)
    (r : Int) : roundTo v decimals roundType = .ok r ↔
      |v| < 2 ^ 63 ∧ magnitude (unit decimals) roundType (|v|) < 2 ^ 63 ∧
        mirror (magnitude (unit decimals) roundType) v = r := by
  have positive := unit_pos decimals
  have small := unit_lt high low
  have nonneg : 0 ≤ magnitude (unit decimals) roundType (|v|) :=
    step_nonneg (rule positive roundType) (abs_nonneg v)
  have whole := round_magnitude positive small (abs_nonneg v) roundType
  rw [roundTo, llpow_eq_unit high, mirror]
  by_cases negative : v < 0
  · have opposite : 0 - v = |v| := by rw [abs_of_neg negative, zero_sub]
    rw [abs_of_neg negative] at opposite ⊢
    rw [abs_of_neg negative] at nonneg whole
    simp only [if_pos negative, opposite]
    rw [checked]
    by_cases within : -v < 2 ^ 63
    · rw [if_pos (fits_of_lt (by omega) within), ok_bind, whole, checked]
      by_cases room : magnitude (unit decimals) roundType (-v) < 2 ^ 63
      · rw [if_pos (fits_of_lt nonneg room), ok_bind, zero_sub]
        have back : Fits (-magnitude (unit decimals) roundType (-v)) := ⟨by omega, by omega⟩
        rw [checked_of_fits back, Except.ok.injEq]
        simp only [within, room, true_and]
      · rw [if_neg (fun fits => room fits.2)]
        constructor
        · intro fault
          cases fault
        · intro fits
          exact absurd fits.2.1 room
    · rw [if_neg (fun fits => within fits.2)]
      constructor
      · intro fault
        cases fault
      · intro fits
        exact absurd fits.1 within
  · rw [abs_of_nonneg (Int.not_lt.1 negative)] at nonneg whole ⊢
    simp only [if_neg negative]
    rw [ok_bind, whole, checked]
    by_cases room : magnitude (unit decimals) roundType v < 2 ^ 63
    · rw [if_pos (fits_of_lt nonneg room), ok_bind, Except.ok.injEq]
      simp only [fits.2, room, true_and]
    · rw [if_neg (fun fits => room fits.2)]
      constructor
      · intro fault
        cases fault
      · intro fits
        exact absurd fits.2.1 room

/-- Rounding to the unit of a decimal keeps the laws of rounding. -/
theorem roundTo_laws (low : 0 ≤ decimals) (roundType : RoundType) : Laws decimals roundType := by
  have positive := unit_pos decimals
  have rounds := rule positive roundType
  have zero := magnitude_zero positive roundType
  have run {v r : Int} (fits : Fits v) (ran : roundTo v decimals roundType = .ok r) :=
    (roundTo_iff high low fits roundType r).1 ran
  have multiple (v r : Int) (fits : Fits v) (ran : roundTo v decimals roundType = .ok r) :
      unit decimals ∣ r := by
    obtain ⟨-, -, rfl⟩ := run fits ran
    exact dvd_mirror (fun m => dvd_step m) v
  have result (v r : Int) (fits : Fits v) (ran : roundTo v decimals roundType = .ok r) :
      |r| = magnitude (unit decimals) roundType (|v|) ∧ Fits r ∧ |r| < 2 ^ 63 := by
    obtain ⟨-, room, rfl⟩ := run fits ran
    have size : |mirror (magnitude (unit decimals) roundType) v| =
        magnitude (unit decimals) roundType (|v|) :=
      abs_mirror (fun m nonneg => step_nonneg rounds nonneg) v
    have small : |mirror (magnitude (unit decimals) roundType) v| < 2 ^ 63 := by
      rwa [size]
    obtain ⟨least, most⟩ := abs_lt.1 small
    exact ⟨size, ⟨Int.le_of_lt least, most⟩, small⟩
  refine ⟨multiple, ?_, ?_, ?_, ?_, ?_, ?_, ?_, ?_⟩
  · intro v r fits ran
    obtain ⟨-, -, rfl⟩ := run fits ran
    rw [abs_mirror_sub]
    exact abs_step_sub_lt rounds _
  · rintro rfl v r fits ran
    obtain ⟨-, -, rfl⟩ := run fits ran
    rw [abs_mirror_sub]
    exact magnitude_nearest positive (unit_even decimals) _
  · intro v r fits whole ran
    obtain ⟨-, -, rfl⟩ := run fits ran
    exact mirror_of_dvd (fun m => step_of_dvd rounds) whole
  · intro v r fits ran
    obtain ⟨small, room, rfl⟩ := run fits ran
    obtain ⟨least, most⟩ := abs_lt.1 small
    have opposite : Fits (-v) := ⟨by omega, by omega⟩
    rw [roundTo_iff high low opposite, abs_neg]
    exact ⟨small, room, mirror_neg zero v⟩
  · intro v w r s fitsV fitsW le ranV ranW
    obtain ⟨-, -, rfl⟩ := run fitsV ranV
    obtain ⟨-, -, rfl⟩ := run fitsW ranW
    exact mirror_mono zero (fun m n _ order => step_mono rounds order) le
  · intro v r fits ran
    obtain ⟨-, fitsR, small⟩ := result v r fits ran
    have whole := multiple v r fits ran
    have same : magnitude (unit decimals) roundType (|r|) = |r| :=
      step_of_dvd rounds ((dvd_abs _ _).2 whole)
    rw [roundTo_iff high low fitsR, same]
    exact ⟨small, small, mirror_of_dvd (fun m => step_of_dvd rounds) whole⟩
  · rintro rfl v r fits ran
    rw [(result v r fits ran).1]
    exact le_magnitude_up positive _
  · rintro rfl v r fits ran
    rw [(result v r fits ran).1]
    exact magnitude_down_le positive _

end

/-- Amounts with two decimals are rounded so. -/
theorem roundTo_laws_cents : Laws 2 .normal := roundTo_laws (by decide) (by decide) .normal

example : roundTo (-123456789) 2 .normal = .ok (-123500000) := by rfl

end CimArm.Round
