import CimArm.Dao.Fields
import CimArm.Lib.Truncation
import Mathlib.Data.Nat.Digits.Lemmas
import Mathlib.Data.Nat.Prime.Defs
import Mathlib.Data.Nat.Factorization.Basic

/-!
# Product and quotient in 64 bits

`muldiv` drops decimal digits from the two factors until their product has at most 18, first
the zeros they end with and then as many from each, and drops as many from the divisor as
from both.  The divisor may not have that many digits, and then nothing is left of it; and where
an odd number of digits must go beyond the zeros, one too few is dropped, so that the product
has 19 digits and may not fit.

* `muldiv_iff`: when there is a result; it is then as near to the exact quotient as the digits
  dropped allow.
-/

namespace CimArm.Muldiv

open Truncation

/-! ## Arithmetic in 64 bits -/

inductive Fault : Type
  | overflow
  | divisionByZero
  deriving DecidableEq

def Fits (n : Int) : Prop := -2 ^ 63 ≤ n ∧ n < 2 ^ 63

instance (n : Int) : Decidable (Fits n) := inferInstanceAs (Decidable (_ ∧ _))

def checked (n : Int) : Except Fault Int := if Fits n then .ok n else .error .overflow

def mul (a b : Int) : Except Fault Int := checked (a * b)

def div (a b : Int) : Except Fault Int :=
  if b = 0 then .error .divisionByZero else checked (a.tdiv b)

/-! ## The function -/

def MAX_LONG_LONG_DIGITS : Nat := 18

/-- The loop of `count_digits`; the value bounds the number of its digits. -/
def countFrom : Nat → Nat → Nat
  | 0, _ => 0
  | fuel + 1, value => if value = 0 then 0 else countFrom fuel (value / 10) + 1

def countDigits (value : Int) : Nat := countFrom value.natAbs value.natAbs

/-- `llpow` for a positive base and an exponent that is not negative. -/
def llpow (base : Int) : Nat → Except Fault Int
  | 0 => .ok 1
  | 1 => .ok base
  | exp + 2 => do mul (← llpow base (exp + 1)) base

def cutDigits (value : Int) (count : Nat) : Except Fault Int := do div value (← llpow 10 count)

/-- How many digits the factors lose, when so many must go. -/
def cutBoth (value1 value2 : Int) (cutdigits : Nat) : Nat × Nat :=
  let cutdigits1 := digitsToCut value1
  let cutdigits2 := digitsToCut value2
  let morecut : Int := cutdigits - cutdigits1 - cutdigits2
  if morecut > 0 then (cutdigits1 + (morecut / 2).toNat, cutdigits2 + (morecut / 2).toNat)
  else if cutdigits1 > cutdigits then (cutdigits, 0)
  else (cutdigits1, cutdigits - cutdigits1)

/-- The end of `muldiv`. -/
def quotient (value1 value2 value3 : Int) : Except Fault Int := do
  let result ← mul value1 value2
  div result value3

def muldiv (value1 value2 value3 : Int) : Except Fault Int :=
  let digits := countDigits value1 + countDigits value2
  if digits > MAX_LONG_LONG_DIGITS then do
    let (cutdigits1, cutdigits2) := cutBoth value1 value2 (digits - MAX_LONG_LONG_DIGITS)
    let cutdigits := cutdigits1 + cutdigits2
    let value1 ← cutDigits value1 cutdigits1
    let value2 ← cutDigits value2 cutdigits2
    let value3 ← (if cutdigits > 0 then cutDigits value3 cutdigits else .ok value3)
    quotient value1 value2 value3
  else quotient value1 value2 value3

/-! ## What it is for -/

/-- How many digits are dropped from the factors. -/
def dropped (v1 v2 : Int) : Nat × Nat :=
  if countDigits v1 + countDigits v2 ≤ 18 then (0, 0)
  else cutBoth v1 v2 (countDigits v1 + countDigits v2 - 18)

/-- What is kept of the factors, of their product and of the divisor. -/
def kept (v1 v2 : Int) : Int :=
  keep (10 ^ (dropped v1 v2).1) v1 * keep (10 ^ (dropped v1 v2).2) v2

def keptDivisor (v1 v2 v3 : Int) : Int :=
  keep (10 ^ ((dropped v1 v2).1 + (dropped v1 v2).2)) v3

/-- There is a result, and it differs from the exact quotient by less than one and what the
digits dropped make. -/
def Meets (v1 v2 v3 : Int) : Prop :=
  ∃ r, muldiv v1 v2 v3 = .ok r ∧ |(v1 * v2 : ℚ) / v3 - r| <
    1 + (|(v1 * v2 : ℚ)| - |(kept v1 v2 : ℚ)|) / |(v3 : ℚ)| +
      |(kept v1 v2 : ℚ)| * (1 / |(keptDivisor v1 v2 v3 : ℚ)| - 1 / |(v3 : ℚ)|)

/-- The divisor has a digit that is not dropped, and the product of what is left of the
factors fits. -/
structure Sound (v1 v2 v3 : Int) : Prop where
  divisor : 10 ^ ((dropped v1 v2).1 + (dropped v1 v2).2) ≤ v3.natAbs
  product : v1.natAbs / 10 ^ (dropped v1 v2).1 * (v2.natAbs / 10 ^ (dropped v1 v2).2) < 2 ^ 63

/-! ## Digits -/

theorem countFrom_eq (fuel value : Nat) (enough : value ≤ fuel) :
    countFrom fuel value = (Nat.digits 10 value).length := by
  induction fuel generalizing value with
  | zero =>
    obtain rfl := Nat.le_zero.1 enough
    rfl
  | succ fuel ih =>
    rw [countFrom]
    split_ifs with zero
    · rw [zero]
      rfl
    · rw [ih _ (by omega), Nat.digits_def' (by decide) (Nat.pos_of_ne_zero zero), List.length_cons]

variable (value v1 v2 : Int)

theorem countDigits_eq : countDigits value = (Nat.digits 10 value.natAbs).length :=
  countFrom_eq _ _ (Nat.le_refl _)

theorem lt_pow_countDigits : value.natAbs < 10 ^ countDigits value := by
  rw [countDigits_eq]
  exact Nat.lt_base_pow_length_digits (by decide)

theorem countDigits_le {value : Int} (fits : Fits value) : countDigits value ≤ 19 := by
  rw [countDigits_eq, Nat.digits_length_le_iff (by decide)]
  obtain ⟨low, high⟩ := fits
  omega

theorem div_lt_pow (count : Nat) :
    value.natAbs / 10 ^ count < 10 ^ (countDigits value - count) := by
  apply Nat.div_lt_of_lt_mul
  refine Nat.lt_of_lt_of_le (lt_pow_countDigits value) ?_
  rw [← pow_add]
  exact Nat.pow_le_pow_right (by decide) (by omega)

theorem le_dropped :
    countDigits v1 + countDigits v2 ≤ 19 + (dropped v1 v2).1 + (dropped v1 v2).2 := by
  rw [dropped]
  split_ifs with few
  · omega
  · rw [cutBoth]
    split_ifs <;> dsimp only <;> omega

/-! ## The steps -/

theorem ok_bind {α β : Type} (a : α) (next : α → Except Fault β) :
    (Except.ok a >>= next) = next a :=
  rfl

theorem checked_of_fits {n : Int} (fits : Fits n) : checked n = .ok n := if_pos fits

theorem fits_pow {count : Nat} : Fits (10 ^ count) ↔ count ≤ 18 := by
  constructor
  · intro fits
    by_contra large
    have le : (10 : Int) ^ 19 ≤ 10 ^ count := by
      exact_mod_cast Nat.pow_le_pow_right (by decide : 0 < 10) (Nat.lt_of_not_le large)
    have := fits.2
    omega
  · intro small
    have le : (10 : Int) ^ count ≤ 10 ^ 18 := by
      exact_mod_cast Nat.pow_le_pow_right (by decide : 0 < 10) small
    have positive : (0 : Int) < 10 ^ count := by positivity
    exact ⟨by omega, by omega⟩

theorem llpow_eq (count : Nat) :
    llpow 10 count = if count ≤ 18 then .ok (10 ^ count) else .error .overflow := by
  induction count using llpow.induct with
  | case1 => simp [llpow]
  | case2 => simp [llpow]
  | case3 exp ih =>
    rw [llpow, ih]
    by_cases small : exp + 1 ≤ 18
    · rw [if_pos small]
      have power : (10 : Int) ^ (exp + 1) * 10 = 10 ^ (exp + 2) := (pow_succ _ _).symm
      rw [ok_bind, mul, power, checked, if_congr fits_pow rfl rfl]
    · rw [if_neg small, if_neg (by omega)]
      rfl

theorem cutDigits_eq {value : Int} (fits : Fits value) {count : Nat} (small : count ≤ 18) :
    cutDigits value count = .ok (value.tdiv (10 ^ count)) := by
  have positive : (0 : Int) < 10 ^ count := by positivity
  have toward := tdiv_toward positive value
  rw [cutDigits, llpow_eq, if_pos small, ok_bind, div, if_neg (Int.ne_of_gt positive)]
  apply checked_of_fits
  obtain ⟨low, high⟩ := fits
  rcases toward with ⟨nonneg, le⟩ | ⟨le, nonpos⟩
  · exact ⟨by omega, by omega⟩
  · exact ⟨by omega, by omega⟩

theorem cutDigits_overflow {count : Nat} (large : 18 < count) :
    cutDigits value count = .error .overflow := by
  rw [cutDigits, llpow_eq, if_neg (Nat.not_le.2 large)]
  rfl

theorem muldiv_eq {v1 v2 v3 : Int} (fits1 : Fits v1) (fits2 : Fits v2) (fits3 : Fits v3)
    (small : (dropped v1 v2).1 + (dropped v1 v2).2 ≤ 18) :
    muldiv v1 v2 v3 =
      quotient (v1.tdiv (10 ^ (dropped v1 v2).1)) (v2.tdiv (10 ^ (dropped v1 v2).2))
        (v3.tdiv (10 ^ ((dropped v1 v2).1 + (dropped v1 v2).2))) := by
  unfold muldiv
  dsimp only
  by_cases few : countDigits v1 + countDigits v2 ≤ 18
  · have none : dropped v1 v2 = (0, 0) := if_pos few
    have fewer : ¬ countDigits v1 + countDigits v2 > MAX_LONG_LONG_DIGITS := Nat.not_lt.2 few
    rw [if_neg fewer, none]
    simp only [Nat.add_zero, pow_zero, Int.tdiv_one]
  · have both : dropped v1 v2 =
        cutBoth v1 v2 (countDigits v1 + countDigits v2 - MAX_LONG_LONG_DIGITS) := if_neg few
    have many : countDigits v1 + countDigits v2 > MAX_LONG_LONG_DIGITS := Nat.lt_of_not_le few
    rw [if_pos many, ← both]
    generalize dropped v1 v2 = cuts at small
    obtain ⟨c1, c2⟩ := cuts
    dsimp only at small ⊢
    rw [cutDigits_eq fits1 (by omega), cutDigits_eq fits2 (by omega)]
    have third : (if c1 + c2 > 0 then cutDigits v3 (c1 + c2) else .ok v3) =
        .ok (v3.tdiv (10 ^ (c1 + c2))) := by
      split_ifs with some
      · exact cutDigits_eq fits3 small
      · have none : c1 + c2 = 0 := by omega
        rw [none, pow_zero, Int.tdiv_one]
    rw [third]
    rfl

theorem muldiv_overflow (v3 : Int) (large : 18 < (dropped v1 v2).1 + (dropped v1 v2).2) (r : Int) :
    muldiv v1 v2 v3 ≠ .ok r := by
  have many : ¬ countDigits v1 + countDigits v2 ≤ 18 := by
    intro few
    have none : dropped v1 v2 = (0, 0) := if_pos few
    rw [none] at large
    exact absurd large (by decide)
  have both : dropped v1 v2 =
      cutBoth v1 v2 (countDigits v1 + countDigits v2 - MAX_LONG_LONG_DIGITS) := if_neg many
  have more : countDigits v1 + countDigits v2 > MAX_LONG_LONG_DIGITS := Nat.lt_of_not_le many
  unfold muldiv
  dsimp only
  rw [if_pos more, ← both]
  generalize dropped v1 v2 = cuts at large
  obtain ⟨c1, c2⟩ := cuts
  dsimp only at large ⊢
  rw [if_pos (by omega), cutDigits_overflow v3 large]
  cases cutDigits v1 c1 with
  | error => nofun
  | ok a =>
    cases cutDigits v2 c2 with
    | error => nofun
    | ok b => nofun

/-! ## The result -/

theorem mul_ne_least {a b k l : Nat} (ha : a < 10 ^ k) (hb : b < 10 ^ l) (few : k + l ≤ 19) :
    a * b ≠ 2 ^ 63 := by
  intro product
  obtain ⟨i, hi, rfl⟩ := (Nat.dvd_prime_pow Nat.prime_two).1 (Dvd.intro b product)
  have rest : b = 2 ^ (63 - i) := by
    apply Nat.eq_of_mul_eq_mul_left (Nat.two_pow_pos i)
    rw [product, ← pow_add]
    congr 1
    omega
  rw [rest] at hb
  have hb : 2 ^ (63 - i) < 10 ^ (19 - k) :=
    Nat.lt_of_lt_of_le hb (Nat.pow_le_pow_right (by decide) (by omega))
  have none : ∀ i < 64, ∀ k < 20, 2 ^ i < 10 ^ k → ¬ 2 ^ (63 - i) < 10 ^ (19 - k) := by
    decide +kernel
  exact none i (by omega) k (by omega) ha hb

theorem quotient_ok {a b c : Int} (least : a.natAbs * b.natAbs ≠ 2 ^ 63) :
    (∃ r, quotient a b c = .ok r) ↔
      c ≠ 0 ∧ a.natAbs * b.natAbs < 2 ^ 63 := by
  have size : (a * b).natAbs = a.natAbs * b.natAbs := Int.natAbs_mul a b
  constructor
  · rintro ⟨r, run⟩
    rw [quotient, mul, checked] at run
    split_ifs at run with fits
    · have run : div (a * b) c = .ok r := run
      rw [div] at run
      split_ifs at run with zero
      obtain ⟨low, high⟩ := fits
      exact ⟨zero, by omega⟩
    · cases run
  · rintro ⟨nonzero, small⟩
    have fits : Fits (a * b) := ⟨by omega, by omega⟩
    rw [quotient, mul, checked_of_fits fits]
    show ∃ r, div (a * b) c = .ok r
    have quotient : ((a * b).tdiv c).natAbs ≤ (a * b).natAbs := by
      rw [Int.natAbs_tdiv]
      exact Nat.div_le_self _ _
    rw [div, if_neg nonzero]
    exact ⟨_, checked_of_fits ⟨by omega, by omega⟩⟩

theorem quotient_eq {a b c r : Int} (run : quotient a b c = .ok r) :
    c ≠ 0 ∧ r = (a * b).tdiv c := by
  rw [quotient, mul, checked] at run
  split_ifs at run with fits
  · have run : div (a * b) c = .ok r := run
    rw [div, checked] at run
    split_ifs at run with zero fits
    exact ⟨zero, (Except.ok.inj run).symm⟩
  · cases run

/-! ## When there is a result -/

theorem natAbs_tdiv_pow (v : Int) (count : Nat) :
    (v.tdiv (10 ^ count)).natAbs = v.natAbs / 10 ^ count := by
  rw [Int.natAbs_tdiv, Int.natAbs_pow]
  rfl

theorem tdiv_kept (v3 : Int) :
    (v1.tdiv (10 ^ (dropped v1 v2).1) * v2.tdiv (10 ^ (dropped v1 v2).2)).tdiv
        (v3.tdiv (10 ^ ((dropped v1 v2).1 + (dropped v1 v2).2))) =
      (kept v1 v2).tdiv (keptDivisor v1 v2 v3) := by
  have positive : (0 : Int) < 10 ^ ((dropped v1 v2).1 + (dropped v1 v2).2) := by positivity
  have product : kept v1 v2 =
      v1.tdiv (10 ^ (dropped v1 v2).1) * v2.tdiv (10 ^ (dropped v1 v2).2) *
        10 ^ ((dropped v1 v2).1 + (dropped v1 v2).2) := by
    rw [kept, keep, keep, pow_add]
    ring
  rw [product, keptDivisor, keep, Int.mul_tdiv_mul_of_pos_left _ _ positive]

/-- There is a result exactly when a digit of the divisor is left and the product of what is
left of the factors fits; it is then as near to the quotient as the dropped digits allow. -/
theorem muldiv_iff (v1 v2 v3 : Int64) (nonzero : v3 ≠ 0) :
    Meets v1.toInt v2.toInt v3.toInt ↔ Sound v1.toInt v2.toInt v3.toInt := by
  have fits (v : Int64) : Fits v.toInt := ⟨v.le_toInt, v.toInt_lt⟩
  have divisor : v3.toInt ≠ 0 := fun zero => nonzero (Int64.toInt_inj.1 zero)
  have fits1 := fits v1
  have fits2 := fits v2
  have fits3 := fits v3
  generalize v1.toInt = v1 at *
  generalize v2.toInt = v2 at *
  generalize v3.toInt = v3 at *
  have few : countDigits v1 - (dropped v1 v2).1 + (countDigits v2 - (dropped v1 v2).2) ≤ 19 := by
    have := le_dropped v1 v2
    have := countDigits_le fits1
    have := countDigits_le fits2
    omega
  have least : (v1.tdiv (10 ^ (dropped v1 v2).1)).natAbs *
      (v2.tdiv (10 ^ (dropped v1 v2).2)).natAbs ≠ 2 ^ 63 := by
    rw [natAbs_tdiv_pow, natAbs_tdiv_pow]
    exact mul_ne_least (div_lt_pow v1 _) (div_lt_pow v2 _) few
  have digit : v3.tdiv (10 ^ ((dropped v1 v2).1 + (dropped v1 v2).2)) ≠ 0 ↔
      10 ^ ((dropped v1 v2).1 + (dropped v1 v2).2) ≤ v3.natAbs := by
    rw [← Int.natAbs_ne_zero, natAbs_tdiv_pow, Nat.ne_zero_iff_zero_lt]
    exact Nat.div_pos_iff.trans (and_iff_right (by positivity))
  have parts := @quotient_ok _ _ (v3.tdiv (10 ^ ((dropped v1 v2).1 + (dropped v1 v2).2))) least
  rw [natAbs_tdiv_pow, natAbs_tdiv_pow] at parts
  constructor
  · rintro ⟨r, run, -⟩
    have small : (dropped v1 v2).1 + (dropped v1 v2).2 ≤ 18 := by
      by_contra large
      exact muldiv_overflow v1 v2 v3 (Nat.lt_of_not_le large) r run
    rw [muldiv_eq fits1 fits2 fits3 small] at run
    obtain ⟨left, product⟩ := parts.1 ⟨r, run⟩
    exact ⟨digit.1 left, product⟩
  · rintro ⟨left, product⟩
    have small : (dropped v1 v2).1 + (dropped v1 v2).2 ≤ 18 := by
      by_contra large
      have le : 10 ^ 19 ≤ 10 ^ ((dropped v1 v2).1 + (dropped v1 v2).2) :=
        Nat.pow_le_pow_right (by decide) (Nat.lt_of_not_le large)
      obtain ⟨low, high⟩ := fits3
      omega
    obtain ⟨r, run⟩ := parts.2 ⟨digit.2 left, product⟩
    obtain ⟨some, same⟩ := quotient_eq run
    refine ⟨r, (muldiv_eq fits1 fits2 fits3 small).trans run, ?_⟩
    have keeps : keptDivisor v1 v2 v3 ≠ 0 := Int.mul_ne_zero some (by positivity)
    have near := @abs_div_sub_tdiv_lt _ (kept v1 v2) _ _
      ((keep_toward _ v1).mul (keep_toward _ v2)) (keep_toward _ v3) keeps
    rw [Int.cast_mul] at near
    rw [same, tdiv_kept]
    exact near

/-- Two amounts of a hundred millions divided by a third. -/
theorem muldiv_iff_amounts : Meets (Int64.toInt 1000000000000000) (Int64.toInt 1000000000000000)
      (Int64.toInt 20000000000000) ↔
    Sound (Int64.toInt 1000000000000000) (Int64.toInt 1000000000000000)
      (Int64.toInt 20000000000000) :=
  muldiv_iff _ _ _ (by decide)

/-- Nothing is left of a divisor of a thousand, and a product of 19 digits does not fit, where
the quotients are small. -/
theorem muldiv_fails :
    (Fits ((10000000000 * 10000000000 : Int).tdiv 1000) ∧
      muldiv 10000000000 10000000000 1000 = .error .divisionByZero) ∧
    Fits ((99999999999 * 99999999 : Int).tdiv 1000000000000) ∧
      muldiv 99999999999 99999999 1000000000000 = .error .overflow := by
  decide +kernel

end CimArm.Muldiv
