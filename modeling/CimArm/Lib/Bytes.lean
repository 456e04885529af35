import Mathlib.Tactic.Ring

/-!
# Numbers as bytes

A number in so many bytes, the lowest one first, and the number that bytes stand for.
-/

namespace CimArm.Bytes

def littleEndian : Nat → Nat → List UInt8
  | 0, _ => []
  | width + 1, n => UInt8.ofNat n :: littleEndian width (n / 256)

def ofLittleEndian : List UInt8 → Nat
  | [] => 0
  | b :: rest => b.toNat + 256 * ofLittleEndian rest

theorem forall_mem_of_all {p : UInt8 → Prop} [DecidablePred p] {bytes : List UInt8}
    (all : bytes.all fun b => p b) : ∀ b ∈ bytes, p b := by
  simpa using all

@[simp] theorem length_littleEndian (width n : Nat) : (littleEndian width n).length = width := by
  induction width generalizing n with
  | zero => rfl
  | succ width ih => exact congrArg Nat.succ (ih (n / 256))

theorem ofLittleEndian_littleEndian {width n : Nat} (fits : n < 256 ^ width) :
    ofLittleEndian (littleEndian width n) = n := by
  induction width generalizing n with
  | zero =>
    have zero : n = 0 := by simpa using fits
    rw [zero]
    rfl
  | succ width ih =>
    have rest : n / 256 < 256 ^ width := by
      apply Nat.div_lt_of_lt_mul
      rwa [← pow_succ']
    have low : (UInt8.ofNat n).toNat = n % 256 := UInt8.toNat_ofNat'
    rw [littleEndian, ofLittleEndian, ih rest, low]
    omega

end CimArm.Bytes
