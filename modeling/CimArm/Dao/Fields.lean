import CimArm.Cim.Defs
import CimArm.Db.RecordSet
import Mathlib.Algebra.Order.Ring.Int
import Mathlib.Tactic.Linarith
import Mathlib.Tactic.Ring

/-!
# What the fields of a record hold

Numbers are cut to the width of their field, texts to its length.  An amount goes
to five bytes, a decimal exponent and a `long` mantissa, with one of its seven
decimals dropped; `decimalToMoney_moneyToDecimal` says which amounts come back.
-/

namespace CimArm

/-- A value written with `setShortValue` and read with `getShortValue`. -/
def toShort (n : Int) : Int := n.bmod (2 ^ 16)

/-- A value written with `setLongValue` and read with `getLongValue`. -/
def toLong (n : Int) : Int := n.bmod (2 ^ 32)

/-- The same for an unsigned value, and for an instant. -/
def toULong (n : Nat) : Nat := n % ulongSize

/-- A text read back from a field that takes so many bytes of it. -/
def toText (len : Nat) (text : CString) : CString := text.take len

theorem toShort_of_range {n : Int} (low : -2 ^ 15 ≤ n) (high : n < 2 ^ 15) : toShort n = n :=
  Int.bmod_eq_of_le (by omega) (by omega)

/-- A number that a `short` holds. -/
def IsShort (v : Int) : Prop := -2 ^ 15 ≤ v ∧ v < 2 ^ 15

instance (v : Int) : Decidable (IsShort v) := inferInstanceAs (Decidable (_ ∧ _))

theorem isShort_toShort (v : Int) : IsShort (toShort v) :=
  ⟨Int.le_bmod (by decide), Int.bmod_lt (by decide)⟩

theorem IsShort.toShort_eq {v : Int} (short : IsShort v) : toShort v = v :=
  toShort_of_range short.1 short.2

theorem IsShort.toShort_natAbs {v : Int} (short : IsShort v) (positive : 0 ≤ v) :
    toShort v.natAbs = v := by
  rw [Int.natAbs_of_nonneg positive]
  exact short.toShort_eq

theorem toLong_of_range {n : Int} (low : -2 ^ 31 ≤ n) (high : n < 2 ^ 31) : toLong n = n :=
  Int.bmod_eq_of_le (by omega) (by omega)

theorem toULong_of_lt {n : Nat} (lt : n < ulongSize) : toULong n = n := Nat.mod_eq_of_lt lt

/-! ## Amounts -/

/-- `decimal_t`: the mantissa times a power of ten. -/
structure Decimal : Type where
  exp : Nat
  mantise : Int
  deriving DecidableEq, Repr

/-- `LONG_MAX` -/
def longMax : Nat := 2 ^ 31 - 1

/-- The loop of `digits_to_cut`; the value bounds the number of its digits. -/
def countZeros : Nat → Nat → Nat
  | 0, _ => 0
  | fuel + 1, value =>
    if value = 0 then 0
    else if value % 10 ≠ 0 then 0
    else countZeros fuel (value / 10) + 1

/-- The number of zeros an amount ends with. -/
def digitsToCut (value : Int) : Nat := countZeros value.natAbs value.natAbs

def cutDigits (value : Int) (count : Nat) : Int := value.tdiv (10 ^ count)

/-- Drop digits until the value fits a `long`. -/
def fitMantise : Nat → Nat → Nat → Nat × Nat
  | 0, value, count => (value, count)
  | fuel + 1, value, count =>
    if value > longMax then fitMantise fuel (value / 10) (count + 1) else (value, count)

def moneyToDecimal (value : Int) : Decimal :=
  let value := value.tdiv 10
  let count := min (digitsToCut value) 6
  let value := cutDigits value count
  let (mantise, count) := fitMantise value.natAbs value.natAbs count
  { exp := count, mantise := if value < 0 then -(mantise : Int) else mantise }

def decimalToMoney (decimal : Decimal) : Int := decimal.mantise * 10 ^ (decimal.exp + 1)

variable (fuel value : Nat)

theorem pow_countZeros_dvd : 10 ^ countZeros fuel value ∣ value := by
  induction fuel generalizing value with
  | zero => simp [countZeros]
  | succ fuel ih =>
    rw [countZeros]
    split_ifs with zero nonzero
    · simp [zero]
    · simp
    · have tens : value = value / 10 * 10 := by omega
      rw [pow_succ]
      conv_rhs => rw [tens]
      exact Nat.mul_dvd_mul_right (ih (value / 10)) 10

theorem fitMantise_le (count : Nat) (enough : value ≤ fuel) :
    (fitMantise fuel value count).1 ≤ longMax := by
  induction fuel generalizing value count with
  | zero =>
    rw [fitMantise]
    omega
  | succ fuel ih =>
    rw [fitMantise]
    split_ifs with large
    · exact ih _ _ (by omega)
    · exact Nat.le_of_not_gt large

theorem fitMantise_exact (count : Nat) {m e : Nat} (fits : m ≤ longMax)
    (same : value * 10 ^ count = m * 10 ^ e) :
    (fitMantise fuel value count).1 * 10 ^ (fitMantise fuel value count).2 = m * 10 ^ e := by
  induction fuel generalizing value count with
  | zero => exact same
  | succ fuel ih =>
    rw [fitMantise]
    split_ifs with large
    · -- the value is beyond the mantissa, so a power of ten is left
      have below : count < e := by
        by_contra h
        have le : 10 ^ e ≤ 10 ^ count := Nat.pow_le_pow_right (by omega) (Nat.le_of_not_lt h)
        have lt : m * 10 ^ e < value * 10 ^ count :=
          Nat.mul_lt_mul_of_lt_of_le (Nat.lt_of_le_of_lt fits large) le (Nat.pos_of_ne_zero (by simp))
        omega
      obtain ⟨d, rfl⟩ := Nat.exists_eq_add_of_lt below
      have tens : value = m * 10 ^ d * 10 := by
        have scaled : value * 10 ^ count = m * 10 ^ d * 10 * 10 ^ count := by
          rw [same]
          ring
        exact Nat.eq_of_mul_eq_mul_right (Nat.pos_of_ne_zero (by simp)) scaled
      refine ih _ _ ?_
      rw [← same, tens, Nat.mul_div_cancel _ (by omega)]
      ring
    · exact same

/-- The amounts that fit their field: seven decimals of which the last is 0, with a
mantissa of at most a `long`. -/
def FitsMoney (value : Int) : Prop :=
  ∃ (m : Int) (e : Nat), value = m * 10 ^ (e + 1) ∧ m.natAbs ≤ longMax

theorem decimalToMoney_moneyToDecimal (value : Int) :
    decimalToMoney (moneyToDecimal value) = value ↔ FitsMoney value := by
  constructor
  · intro back
    refine ⟨_, _, back.symm, ?_⟩
    have le := fitMantise_le (cutDigits (value.tdiv 10) (min (digitsToCut (value.tdiv 10)) 6)).natAbs
      _ (min (digitsToCut (value.tdiv 10)) 6) (Nat.le_refl _)
    simp only [moneyToDecimal]
    split_ifs <;> simpa using le
  · rintro ⟨m, e, rfl, fits⟩
    have tens : (m * 10 ^ (e + 1)).tdiv 10 = m * 10 ^ e := by
      rw [pow_succ, ← mul_assoc, Int.mul_tdiv_cancel _ (by omega)]
    simp only [moneyToDecimal, tens, decimalToMoney]
    generalize hv : m * 10 ^ e = v
    generalize hcount : min (digitsToCut v) 6 = count
    generalize hcut : cutDigits v count = cut
    have whole : cut * 10 ^ count = v := by
      rw [← hcut]
      refine Int.tdiv_mul_cancel (Int.natAbs_dvd_natAbs.1 ?_)
      rw [Int.natAbs_pow, ← hcount]
      exact Nat.dvd_trans (Nat.pow_dvd_pow 10 (Nat.min_le_left _ _)) (pow_countZeros_dvd _ _)
    have abs : cut.natAbs * 10 ^ count = m.natAbs * 10 ^ e := by
      have := congrArg Int.natAbs (whole.trans hv.symm)
      simpa [Int.natAbs_mul, Int.natAbs_pow] using this
    have exact := fitMantise_exact cut.natAbs cut.natAbs count fits abs
    rw [← abs] at exact
    generalize fitMantise cut.natAbs cut.natAbs count = fitted at exact ⊢
    obtain ⟨mantise, exp⟩ := fitted
    have kept : (mantise : Int) * 10 ^ exp = cut.natAbs * 10 ^ count := by exact_mod_cast exact
    have target : m * 10 ^ (e + 1) = cut * 10 ^ count * 10 := by
      rw [whole, ← hv]
      ring
    rw [target]
    split_ifs with negative
    · rw [Int.ofNat_natAbs_of_nonpos (Int.le_of_lt negative)] at kept
      have : -(mantise : Int) * 10 ^ exp = cut * 10 ^ count := by linarith
      rw [pow_succ, ← mul_assoc, this]
    · rw [Int.natAbs_of_nonneg (Int.not_lt.1 negative)] at kept
      rw [pow_succ, ← mul_assoc, kept]

instance (value : Int) : Decidable (FitsMoney value) :=
  decidable_of_iff _ (decimalToMoney_moneyToDecimal value)

end CimArm
