import Mathlib.Data.UInt

/-!
# The field of bytes

Bytes are polynomials over bits, taken modulo `x⁸ + x⁴ + x³ + x + 1`: the sum is the exclusive
or, and a product is made of products with `x`, so that it is additive.
-/

namespace CimArm.ByteField

/-! ## Bytes in turn -/

/-- What holds of all bytes can be looked at for one after the other. -/
theorem forall_byte {p : UInt8 → Prop} (all : ∀ n : BitVec 8, p ⟨n⟩) (a : UInt8) : p a :=
  all a.toBitVec

theorem xor_self_right (a b : UInt8) : a ^^^ b ^^^ b = a := by
  rw [UInt8.xor_assoc, UInt8.xor_self, UInt8.xor_zero]

theorem xor_left_injective (k : UInt8) : Function.Injective fun a => a ^^^ k := by
  intro a b same
  have back := congrArg (· ^^^ k) same
  simp only [xor_self_right] at back
  exact back

/-! ## The product -/

/-- The product with `x`. -/
def xtime (a : UInt8) : UInt8 := (a <<< 1) ^^^ if 0x80 ≤ a then 0x1b else 0

/-- The product with a polynomial of so many coefficients. -/
def product : Nat → UInt8 → UInt8 → UInt8
  | 0, _, _ => 0
  | count + 1, c, a => (if c % 2 = 1 then a else 0) ^^^ product count (c / 2) (xtime a)

def mul (c a : UInt8) : UInt8 := product 8 c a

theorem le_iff_msb (a : UInt8) : 0x80 ≤ a ↔ a.toBitVec.msb = true := by
  rw [BitVec.msb_eq_decide, decide_eq_true_iff]
  exact Iff.rfl

theorem shiftLeft_xor (a b : UInt8) : (a ^^^ b) <<< 1 = a <<< 1 ^^^ b <<< 1 := by
  apply UInt8.toBitVec_inj.1
  simp only [UInt8.toBitVec_shiftLeft, UInt8.toBitVec_xor]
  exact BitVec.shiftLeft_xor_distrib _ _ _

theorem xtime_xor (a b : UInt8) : xtime (a ^^^ b) = xtime a ^^^ xtime b := by
  simp only [xtime, shiftLeft_xor, le_iff_msb, UInt8.toBitVec_xor, BitVec.msb_xor]
  cases a.toBitVec.msb <;> cases b.toBitVec.msb
  case true.true =>
    simp only [Bool.xor_self, if_true, Bool.false_eq_true, if_false, UInt8.xor_zero]
    rw [UInt8.xor_comm (b <<< 1), ← UInt8.xor_assoc, xor_self_right]
  all_goals
    simp only [Bool.xor_false, Bool.false_xor, Bool.false_eq_true, if_true, if_false,
      UInt8.xor_zero]
    try ac_rfl

theorem product_xor (count : Nat) (c a b : UInt8) :
    product count c (a ^^^ b) = product count c a ^^^ product count c b := by
  induction count generalizing c a b with
  | zero => rw [product, product, product, UInt8.xor_zero]
  | succ count ih =>
    rw [product, product, product, xtime_xor, ih]
    split
    · ac_rfl
    · simp only [UInt8.zero_xor]

theorem mul_xor (c a b : UInt8) : mul c (a ^^^ b) = mul c a ^^^ mul c b :=
  product_xor 8 c a b

@[simp] theorem one_mul (a : UInt8) : mul 1 a = a := by
  revert a
  apply forall_byte
  decide +kernel

@[simp] theorem two_mul (a : UInt8) : mul 2 a = xtime a := by
  revert a
  apply forall_byte
  decide +kernel

theorem three_mul (a : UInt8) : mul 3 a = xtime a ^^^ a := by
  revert a
  apply forall_byte
  decide +kernel

end CimArm.ByteField
