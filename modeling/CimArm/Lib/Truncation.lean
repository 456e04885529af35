import Mathlib.Algebra.Order.Field.Rat
import Mathlib.Algebra.Order.Ring.Abs
import Mathlib.Tactic.FieldSimp
import Mathlib.Tactic.Linarith
import Mathlib.Tactic.Positivity
import Mathlib.Tactic.Ring

/-!
# Numbers without their last digits

A number that loses its last digits moves towards zero, and so does a product when its factors
do.  A quotient of such numbers, cut to an integer, differs from that of the original numbers by
what the numerator loses, by what a smaller divisor adds, and by less than one for the cut
(`abs_div_sub_tdiv_lt`).
-/

namespace CimArm.Truncation

/-- The first number is between zero and the second one. -/
def Toward (w v : Int) : Prop := 0 ≤ w ∧ w ≤ v ∨ v ≤ w ∧ w ≤ 0

variable {v w v' w' : Int}

/-- A number without its last digits. -/
def keep (base v : Int) : Int := v.tdiv base * base

theorem keep_toward (base v : Int) : Toward (keep base v) v := by
  have parts : keep base v + v.tmod base = v := by
    rw [keep, Int.mul_comm]
    exact Int.mul_tdiv_add_tmod v base
  rcases Int.le_total 0 v with nonneg | nonpos
  · have rest := Int.tmod_nonneg base nonneg
    have low : v.tmod base ≤ v := by
      have := Nat.mod_le v.natAbs base.natAbs
      rw [← Int.natAbs_tmod] at this
      omega
    exact .inl ⟨by omega, by omega⟩
  · have rest := Int.tmod_nonneg base (show 0 ≤ -v by omega)
    rw [Int.neg_tmod] at rest
    have low : v ≤ v.tmod base := by
      have := Nat.mod_le v.natAbs base.natAbs
      rw [← Int.natAbs_tmod] at this
      omega
    exact .inr ⟨by omega, by omega⟩

theorem tdiv_toward {base : Int} (positive : 0 < base) (v : Int) : Toward (v.tdiv base) v := by
  have size : (v.tdiv base).natAbs ≤ v.natAbs := by
    rw [Int.natAbs_tdiv]
    exact Nat.div_le_self _ _
  rcases Int.le_total 0 v with nonneg | nonpos
  · have low := Int.tdiv_nonneg nonneg (Int.le_of_lt positive)
    exact .inl ⟨low, by omega⟩
  · have high := Int.tdiv_nonneg (show 0 ≤ -v by omega) (Int.le_of_lt positive)
    rw [Int.neg_tdiv] at high
    exact .inr ⟨by omega, by omega⟩

theorem Toward.mul (first : Toward w v) (second : Toward w' v') :
    Toward (w * w') (v * v') := by
  rcases first with ⟨low, high⟩ | ⟨low, high⟩ <;>
    rcases second with ⟨low', high'⟩ | ⟨low', high'⟩
  · exact .inl ⟨by nlinarith, by nlinarith⟩
  · exact .inr ⟨by nlinarith, by nlinarith⟩
  · exact .inr ⟨by nlinarith, by nlinarith⟩
  · exact .inl ⟨by nlinarith, by nlinarith⟩

theorem Toward.abs_sub (toward : Toward w v) : |(v : ℚ) - w| = |(v : ℚ)| - |(w : ℚ)| := by
  rcases toward with ⟨low, high⟩ | ⟨low, high⟩
  · have low : (0 : ℚ) ≤ w := by exact_mod_cast low
    have high : (w : ℚ) ≤ v := by exact_mod_cast high
    rw [abs_of_nonneg low, abs_of_nonneg (low.trans high), abs_of_nonneg (sub_nonneg.2 high)]
  · have high : (w : ℚ) ≤ 0 := by exact_mod_cast high
    have low : (v : ℚ) ≤ w := by exact_mod_cast low
    rw [abs_of_nonpos high, abs_of_nonpos (low.trans high), abs_of_nonpos (sub_nonpos.2 low)]
    ring

theorem Toward.abs_inv_sub (toward : Toward w v) (nonzero : w ≠ 0) :
    |(1 : ℚ) / v - 1 / w| = 1 / |(w : ℚ)| - 1 / |(v : ℚ)| := by
  rcases toward with ⟨low, high⟩ | ⟨low, high⟩
  · have low : (0 : ℚ) < w := by exact_mod_cast lt_of_le_of_ne low (Ne.symm nonzero)
    have high : (w : ℚ) ≤ v := by exact_mod_cast high
    rw [abs_of_pos low, abs_of_pos (low.trans_le high),
      abs_of_nonpos (sub_nonpos.2 (one_div_le_one_div_of_le low high))]
    ring
  · have high : (w : ℚ) < 0 := by exact_mod_cast lt_of_le_of_ne high nonzero
    have low : (v : ℚ) ≤ w := by exact_mod_cast low
    rw [abs_of_neg high, abs_of_neg (low.trans_lt high),
      abs_of_nonneg (sub_nonneg.2 (one_div_le_one_div_of_neg_of_le high low))]
    ring

theorem abs_div_sub_tdiv (a : Int) {b : Int} (nonzero : b ≠ 0) :
    |(a : ℚ) / b - (a.tdiv b : Int)| < 1 := by
  have parts : (b : ℚ) * (a.tdiv b : Int) + (a.tmod b : Int) = a := by
    exact_mod_cast Int.mul_tdiv_add_tmod a b
  have divisor : (b : ℚ) ≠ 0 := by exact_mod_cast nonzero
  have rest : (a : ℚ) / b - (a.tdiv b : Int) = (a.tmod b : Int) / b := by
    field_simp
    linarith
  rw [rest, abs_div, div_lt_one (abs_pos.2 divisor)]
  have small : (a.tmod b).natAbs < b.natAbs := by
    rw [Int.natAbs_tmod]
    exact Nat.mod_lt _ (Int.natAbs_pos.2 nonzero)
  have small : |a.tmod b| < |b| := by
    rw [Int.abs_eq_natAbs, Int.abs_eq_natAbs]
    exact_mod_cast small
  exact_mod_cast small

theorem abs_div_sub_tdiv_lt {a b c d : Int} (numerator : Toward b a) (divisor : Toward d c)
    (nonzero : d ≠ 0) :
    |(a : ℚ) / c - (b.tdiv d : Int)| <
      1 + (|(a : ℚ)| - |(b : ℚ)|) / |(c : ℚ)| + |(b : ℚ)| * (1 / |(d : ℚ)| - 1 / |(c : ℚ)|) := by
  have lost : |(a : ℚ) / c - b / c| = (|(a : ℚ)| - |(b : ℚ)|) / |(c : ℚ)| := by
    rw [← sub_div, abs_div, numerator.abs_sub]
  have added : |(b : ℚ) / c - b / d| = |(b : ℚ)| * (1 / |(d : ℚ)| - 1 / |(c : ℚ)|) := by
    rw [← divisor.abs_inv_sub nonzero, ← abs_mul]
    congr 1
    ring
  have cut := abs_div_sub_tdiv b nonzero
  rw [← lost, ← added]
  have sum : (a : ℚ) / c - (b.tdiv d : Int) =
      (a / c - b / c) + (b / c - b / d) + (b / d - (b.tdiv d : Int)) := by ring
  rw [sum]
  have first := abs_add_le ((a / c - b / c : ℚ) + (b / c - b / d)) (b / d - (b.tdiv d : Int))
  have second := abs_add_le (a / c - b / c : ℚ) (b / c - b / d)
  linarith

end CimArm.Truncation
