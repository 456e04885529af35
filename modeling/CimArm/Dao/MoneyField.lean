import CimArm.Dao.Fields
import Mathlib.Tactic.NormNum.Pow

/-!
# The five bytes of an amount

`setMoneyValue` writes an amount as the exponent in one byte and the mantissa in four,
most significant first; `getMoneyValue` multiplies them again in 64 bits.  An amount has
seven decimals and the field keeps six, so a seventh is lost on purpose.  Of the rest,
`moneyToDecimal` drops digits until the mantissa fits a `long`:

* `getMoneyValue_setMoneyValue`: an amount comes back if and only if it fits, that is,
  without its trailing zeros it is at most a `long` (and its seventh decimal is a zero).
* `getMoneyValue_setMoneyValue_near`: an amount with six decimals that does not fit
  comes back short by less than one part in two hundred million.
-/

namespace CimArm

open List

/-! ## A `long` in four bytes -/

/-- A `long`, most significant byte first. -/
def longBytes (n : Int) : List UInt8 :=
  let u := (n % 2 ^ 32).toNat
  [UInt8.ofNat (u / 2 ^ 24), UInt8.ofNat (u / 2 ^ 16), UInt8.ofNat (u / 2 ^ 8), UInt8.ofNat u]

/-- The `long` of four bytes. -/
def longOfBytes (b : List UInt8) : Int :=
  toLong ((b.getD 0 0).toNat * 2 ^ 24 + (b.getD 1 0).toNat * 2 ^ 16 + (b.getD 2 0).toNat * 2 ^ 8 +
    (b.getD 3 0).toNat)

theorem longOfBytes_longBytes (n : Int) : longOfBytes (longBytes n) = toLong n := by
  have nonneg : 0 ≤ n % 2 ^ 32 := Int.emod_nonneg n (by decide)
  have below : n % 2 ^ 32 < 2 ^ 32 := Int.emod_lt_of_pos n (by decide)
  have joined : ((UInt8.ofNat ((n % 2 ^ 32).toNat / 2 ^ 24)).toNat * 2 ^ 24 +
      (UInt8.ofNat ((n % 2 ^ 32).toNat / 2 ^ 16)).toNat * 2 ^ 16 +
      (UInt8.ofNat ((n % 2 ^ 32).toNat / 2 ^ 8)).toNat * 2 ^ 8 +
      (UInt8.ofNat (n % 2 ^ 32).toNat).toNat : Int) = n % 2 ^ 32 := by
    simp only [UInt8.toNat_ofNat']
    omega
  simp only [longOfBytes, longBytes, getD_cons_zero, getD_cons_succ, joined]
  exact Int.emod_bmod n (2 ^ 32)

/-! ## The field -/

/-- The bytes that `setMoneyValue` hands to `setValue`. -/
def setMoneyValue (value : Int64) : List UInt8 :=
  let decimal := moneyToDecimal value.toInt
  UInt8.ofNat decimal.exp :: longBytes decimal.mantise

/-- The amount in five bytes. -/
def getMoneyValue (buf : List UInt8) : Int64 :=
  Int64.ofInt (decimalToMoney ⟨(buf.getD 0 0).toNat, longOfBytes (buf.drop 1)⟩)

/-! ## The digits that are kept -/

theorem fitMantise_eq (fuel value count : Nat) :
    ∃ d, fitMantise fuel value count = (value / 10 ^ d, count + d) ∧
      (d = 0 ∨ longMax / 10 ≤ value / 10 ^ d) := by
  induction fuel generalizing value count with
  | zero => exact ⟨0, by simp [fitMantise], .inl rfl⟩
  | succ fuel ih =>
    rw [fitMantise]
    split_ifs with large
    · rcases ih (value / 10) (count + 1) with ⟨d, fitted, kept⟩
      have deeper : value / 10 / 10 ^ d = value / 10 ^ (d + 1) := by
        rw [Nat.div_div_eq_div_mul, pow_succ, Nat.mul_comm]
      refine ⟨d + 1, by rw [fitted, deeper, Nat.add_assoc, Nat.add_comm 1 d], .inr ?_⟩
      rcases kept with rfl | kept
      · simpa using Nat.div_le_div_right (c := 10) (Nat.le_of_lt large)
      · rwa [deeper] at kept
    · exact ⟨0, by simp, .inl rfl⟩

variable (value : Int)

theorem tdiv_natCast (n : Nat) : value.tdiv n =
      if value < 0 then -((value.natAbs / n : Nat) : Int) else ((value.natAbs / n : Nat) : Int) := by
  split_ifs with negative
  · have size : value = -(value.natAbs : Int) := by omega
    conv_lhs => rw [size, Int.neg_tdiv]
    rfl
  · have size : value = (value.natAbs : Int) := by omega
    conv_lhs => rw [size]
    rfl

theorem natAbs_tdiv_pow (k : Nat) : (value.tdiv (10 ^ k)).natAbs = value.natAbs / 10 ^ k := by
  rw [Int.natAbs_tdiv, Int.natAbs_pow]
  rfl

theorem tdiv_pow_tdiv (a b : Nat) :
    (value.tdiv (10 ^ a)).tdiv (10 ^ b) = value.tdiv (10 ^ (a + b)) := by
  have cast : ∀ k : Nat, (10 : Int) ^ k = ((10 ^ k : Nat) : Int) := by
    intro k
    push_cast
    rfl
  rcases value.eq_nat_or_neg with ⟨n, rfl | rfl⟩
  · simp only [cast, ← Int.ofNat_tdiv, Nat.div_div_eq_div_mul, pow_add]
  · simp only [cast, Int.neg_tdiv, ← Int.ofNat_tdiv, Nat.div_div_eq_div_mul, pow_add]

/-- The mantissa is the amount without its last digits; when more than zeros are dropped
it is a tenth of a `long` at least. -/
theorem moneyToDecimal_eq : ∃ count d, count ≤ 6 ∧ 10 ^ count ∣ (value.tdiv 10).natAbs ∧
      moneyToDecimal value = ⟨count + d, value.tdiv (10 ^ (count + d + 1))⟩ ∧
      (d = 0 ∨ longMax / 10 ≤ (value.tdiv (10 ^ (count + d + 1))).natAbs) := by
  generalize hcount : min (digitsToCut (value.tdiv 10)) 6 = count
  generalize hcut : cutDigits (value.tdiv 10) count = cut
  rcases fitMantise_eq cut.natAbs cut.natAbs count with ⟨d, fitted, kept⟩
  have shorter : cut.tdiv (10 ^ d : Nat) = value.tdiv (10 ^ (count + d + 1)) := by
    push_cast
    rw [← hcut, cutDigits, tdiv_pow_tdiv, Nat.add_comm _ 1, ← tdiv_pow_tdiv value 1, pow_one]
  have zeros : 10 ^ count ∣ (value.tdiv 10).natAbs := by
    rw [← hcount]
    exact (Nat.pow_dvd_pow 10 (Nat.min_le_left _ _)).trans (pow_countZeros_dvd _ _)
  have size : cut.natAbs / 10 ^ d = (value.tdiv (10 ^ (count + d + 1))).natAbs := by
    rw [← shorter, Nat.cast_pow, Nat.cast_ofNat, natAbs_tdiv_pow]
  refine ⟨count, d, hcount ▸ Nat.min_le_right _ _, zeros, ?_, size ▸ kept⟩
  rw [← shorter, tdiv_natCast]
  simp only [moneyToDecimal, hcount, hcut, fitted]

theorem moneyToDecimal_exp_le (range : value.natAbs ≤ 2 ^ 63) :
    (moneyToDecimal value).exp ≤ 15 := by
  rcases moneyToDecimal_eq value with ⟨count, d, six, -, decimal, kept⟩
  rw [decimal]
  dsimp only
  rcases kept with rfl | kept
  · omega
  · rw [natAbs_tdiv_pow, Nat.le_div_iff_mul_le (by positivity)] at kept
    by_contra deep
    have power : 10 ^ 17 ≤ 10 ^ (count + d + 1) := Nat.pow_le_pow_right (by decide) (by omega)
    have scaled := Nat.mul_le_mul_left (longMax / 10) power
    have large : 2 ^ 63 < longMax / 10 * 10 ^ 17 := by decide
    omega

theorem decimalToMoney_eq : decimalToMoney (moneyToDecimal value) =
      value.tdiv (10 ^ ((moneyToDecimal value).exp + 1)) *
        10 ^ ((moneyToDecimal value).exp + 1) := by
  rcases moneyToDecimal_eq value with ⟨count, d, -, -, decimal, -⟩
  simp only [decimal, decimalToMoney]

theorem moneyToDecimal_mantise_le : (moneyToDecimal value).mantise.natAbs ≤ longMax := by
  have le := fitMantise_le (cutDigits (value.tdiv 10) (min (digitsToCut (value.tdiv 10)) 6)).natAbs
    _ (min (digitsToCut (value.tdiv 10)) 6) (Nat.le_refl _)
  simp only [moneyToDecimal]
  split_ifs <;> simpa using le

theorem natAbs_decimalToMoney_le :
    (decimalToMoney (moneyToDecimal value)).natAbs ≤ value.natAbs / 10 * 10 := by
  have size : (10 : Int).natAbs = 10 := rfl
  rw [decimalToMoney_eq, Int.natAbs_mul, natAbs_tdiv_pow, Int.natAbs_pow, size, Nat.pow_succ]
  generalize 10 ^ (moneyToDecimal value).exp = p
  calc
    _ = value.natAbs / 10 / p * p * 10 := by
      rw [Nat.div_div_eq_div_mul, Nat.mul_comm p 10, Nat.mul_assoc _ p 10, Nat.mul_comm p 10]
    _ ≤ value.natAbs / 10 * 10 := Nat.mul_le_mul_right 10 (Nat.div_mul_le_self _ p)

/-! ## The round trip -/

theorem toInt_getMoneyValue (value : Int64) :
    (getMoneyValue (setMoneyValue value)).toInt = decimalToMoney (moneyToDecimal value.toInt) := by
  have range : value.toInt.natAbs ≤ 2 ^ 63 := by
    have low := value.le_toInt
    have high := value.toInt_lt
    omega
  have exp : (UInt8.ofNat (moneyToDecimal value.toInt).exp).toNat =
      (moneyToDecimal value.toInt).exp := by
    have small := moneyToDecimal_exp_le value.toInt range
    rw [UInt8.toNat_ofNat', Nat.mod_eq_of_lt (by omega)]
  have mantise : longOfBytes (longBytes (moneyToDecimal value.toInt).mantise) =
      (moneyToDecimal value.toInt).mantise := by
    have fits := moneyToDecimal_mantise_le value.toInt
    rw [longMax] at fits
    rw [longOfBytes_longBytes]
    exact toLong_of_range (by omega) (by omega)
  have bound := natAbs_decimalToMoney_le value.toInt
  have field : getMoneyValue (setMoneyValue value) =
      Int64.ofInt (decimalToMoney (moneyToDecimal value.toInt)) := by
    simp only [getMoneyValue, setMoneyValue, getD_cons_zero, drop_succ_cons,
      drop_zero, exp, mantise]
  rw [field]
  apply Int64.toInt_ofInt_of_le <;> omega

/-- **The round trip of an amount**: it comes back if and only if it fits its field. -/
theorem getMoneyValue_setMoneyValue (value : Int64) :
    getMoneyValue (setMoneyValue value) = value ↔ FitsMoney value.toInt := by
  rw [← Int64.toInt_inj, toInt_getMoneyValue, decimalToMoney_moneyToDecimal]

theorem fitsMoney_getMoneyValue (value : Int64) :
    FitsMoney (getMoneyValue (setMoneyValue value)).toInt := by
  rw [toInt_getMoneyValue]
  exact ⟨_, _, rfl, moneyToDecimal_mantise_le value.toInt⟩

/-- 21 474 836.49 comes back as 21 474 836.40. -/
theorem setMoneyValue_cents :
    ¬ ∀ value : Int64, 10 ∣ value.toInt → getMoneyValue (setMoneyValue value) = value := by
  intro back
  have cents := back 214748364900000 (by decide)
  exact absurd cents (by decide)

/-- An amount with six decimals that does not fit comes back smaller by less than one
part in two hundred million. -/
theorem getMoneyValue_setMoneyValue_near (value : Int64) (decimals : 10 ∣ value.toInt) :
    (value.toInt - (getMoneyValue (setMoneyValue value)).toInt).natAbs * (longMax / 10) ≤
      value.toInt.natAbs := by
  rw [toInt_getMoneyValue]
  rcases moneyToDecimal_eq value.toInt with ⟨count, d, -, zeros, decimal, kept⟩
  have short : (value.toInt - decimalToMoney (moneyToDecimal value.toInt)).natAbs =
      value.toInt.natAbs % 10 ^ (count + d + 1) := by
    rw [decimalToMoney_eq, decimal, Int.mul_comm, ← Int.tmod_def, Int.natAbs_tmod, Int.natAbs_pow]
    rfl
  rw [short]
  rcases kept with rfl | kept
  · -- only zeros are dropped
    have whole : 10 ^ (count + 1) ∣ value.toInt.natAbs := by
      have tens := congrArg Int.natAbs (Int.tdiv_mul_cancel decimals)
      rw [Int.natAbs_mul] at tens
      rw [← tens, pow_succ]
      exact Nat.mul_dvd_mul_right zeros 10
    rw [Nat.add_zero, Nat.mod_eq_zero_of_dvd whole, Nat.zero_mul]
    exact Nat.zero_le _
  · rw [natAbs_tdiv_pow] at kept
    calc
      _ ≤ 10 ^ (count + d + 1) * (value.toInt.natAbs / 10 ^ (count + d + 1)) :=
        Nat.mul_le_mul (Nat.le_of_lt (Nat.mod_lt _ (by positivity))) kept
      _ ≤ value.toInt.natAbs := Nat.mul_div_le _ _

theorem getMoneyValue_setMoneyValue_rounded :
    ((214748364900000 : Int64).toInt -
        (getMoneyValue (setMoneyValue 214748364900000)).toInt).natAbs * (longMax / 10) ≤
      (214748364900000 : Int64).toInt.natAbs :=
  getMoneyValue_setMoneyValue_near 214748364900000 (by decide)

end CimArm
