import CimArm.Lib.ByteField
import Mathlib.Data.Fin.Basic
import Mathlib.Tactic.FinCases

/-!
# Rijndael

The cipher on blocks of four columns of four bytes, for a key of any number of words and any
substitution of the bytes.  The rounds mix the columns as polynomials over the field of bytes.
Where the substitution can be undone, so can the cipher, with the same round keys.
-/

namespace CimArm.Rijndael

open ByteField

abbrev Word := Fin 4 → UInt8

/-- The columns of a block. -/
abbrev State := Fin 4 → Word

variable (sub : UInt8 → UInt8)

/-! ## The key -/

/-- The power of `x` that stands at a place of the schedule. -/
def rcon : Nat → UInt8
  | 0 => 0x8d
  | i + 1 => xtime (rcon i)

/-- What a word of the schedule takes from the one before. -/
def schedule (Nk i : Nat) (before : Word) : Word := fun j =>
  if i % Nk = 0 then sub (before (j + 1)) ^^^ (if j = 0 then rcon (i / Nk) else 0)
  else if Nk > 6 ∧ i % Nk = 4 then sub (before j)
  else before j

/-- The words of the schedule, of which the first ones are the key. -/
def word (Nk : Nat) (key : Nat → Word) (i : Nat) : Word :=
  if i < Nk ∨ Nk = 0 then key i
  else fun j => word Nk key (i - Nk) j ^^^ schedule sub Nk i (word Nk key (i - 1)) j
termination_by i
decreasing_by all_goals omega

variable {sub}

theorem word_key {Nk : Nat} (key : Nat → Word) {i : Nat} (inside : i < Nk) :
    word sub Nk key i = key i := by
  rw [word, if_pos (Or.inl inside)]

theorem word_next {Nk i : Nat} (key : Nat → Word) (some : 0 < Nk) (behind : Nk ≤ i) (j : Fin 4) :
    word sub Nk key i j =
      word sub Nk key (i - Nk) j ^^^ schedule sub Nk i (word sub Nk key (i - 1)) j := by
  rw [word, if_neg (by omega)]

theorem word_congr {Nk : Nat} {key key' : Nat → Word} (some : 0 < Nk)
    (same : ∀ i < Nk, key i = key' i) (i : Nat) : word sub Nk key i = word sub Nk key' i := by
  induction i using Nat.strongRecOn with
  | ind i ih =>
    rcases Nat.lt_or_ge i Nk with inside | behind
    · rw [word_key key inside, word_key key' inside, same i inside]
    · funext j
      rw [word_next key some behind, word_next key' some behind, ih (i - Nk) (by omega),
        ih (i - 1) (by omega)]

variable (sub)

/-- The key of a round. -/
def roundKey (Nk : Nat) (key : Nat → Word) (round : Nat) : State :=
  fun c => word sub Nk key (4 * round + c)

/-! ## The rounds -/

def addRoundKey (key s : State) : State := fun c r => s c r ^^^ key c r

def subBytes (s : State) : State := fun c r => sub (s c r)

def shiftRows (s : State) : State := fun c r => s (c + r) r

def mixColumns (s : State) : State := fun c r =>
  mul 2 (s c r) ^^^ mul 3 (s c (r + 1)) ^^^ s c (r + 2) ^^^ s c (r + 3)

/-- All rounds but the last. -/
def rounds (keys : Nat → State) : Nat → State → State
  | 0, s => s
  | round + 1, s =>
    addRoundKey (keys (round + 1)) (mixColumns (shiftRows (subBytes sub (rounds keys round s))))

def encrypt (keys : Nat → State) (Nr : Nat) (s : State) : State :=
  addRoundKey (keys Nr)
    (shiftRows (subBytes sub (rounds sub keys (Nr - 1) (addRoundKey (keys 0) s))))

/-! ## The way back -/

def unshiftRows (s : State) : State := fun c r => s (c - r) r

def unmixColumns (s : State) : State := fun c r =>
  mul 14 (s c r) ^^^ mul 11 (s c (r + 1)) ^^^ mul 13 (s c (r + 2)) ^^^ mul 9 (s c (r + 3))

variable (unsub : UInt8 → UInt8)

def unrounds (keys : Nat → State) : Nat → State → State
  | 0, s => s
  | round + 1, s =>
    unrounds keys round
      (subBytes unsub (unshiftRows (unmixColumns (addRoundKey (keys (round + 1)) s))))

def decrypt (keys : Nat → State) (Nr : Nat) (s : State) : State :=
  addRoundKey (keys 0) (unrounds unsub keys (Nr - 1)
    (subBytes unsub (unshiftRows (addRoundKey (keys Nr) s))))

variable {sub unsub}

@[simp] theorem addRoundKey_addRoundKey (key s : State) :
    addRoundKey key (addRoundKey key s) = s := by
  funext c r
  exact xor_self_right _ _

theorem subBytes_subBytes (inverse : Function.LeftInverse unsub sub) (s : State) :
    subBytes unsub (subBytes sub s) = s := by
  funext c r
  exact inverse (s c r)

@[simp] theorem unshiftRows_shiftRows (s : State) : unshiftRows (shiftRows s) = s := by
  funext c r
  change s (c - r + r) r = s c r
  rw [sub_add_cancel]

/-- The products of the two polynomials: one for the byte itself, and none for the others. -/
theorem products_self (a : UInt8) :
    mul 14 (mul 2 a) ^^^ mul 11 a ^^^ mul 13 a ^^^ mul 9 (mul 3 a) = a := by
  revert a
  apply forall_byte
  decide +kernel

theorem products_next (a : UInt8) :
    mul 14 (mul 3 a) ^^^ mul 11 (mul 2 a) ^^^ mul 13 a ^^^ mul 9 a = 0 := by
  revert a
  apply forall_byte
  decide +kernel

theorem products_across (a : UInt8) :
    mul 14 a ^^^ mul 11 (mul 3 a) ^^^ mul 13 (mul 2 a) ^^^ mul 9 a = 0 := by
  revert a
  apply forall_byte
  decide +kernel

theorem products_before (a : UInt8) :
    mul 14 a ^^^ mul 11 a ^^^ mul 13 (mul 3 a) ^^^ mul 9 (mul 2 a) = 0 := by
  revert a
  apply forall_byte
  decide +kernel

theorem unmix_column (a b c d : UInt8) :
    mul 14 (mul 2 a ^^^ mul 3 b ^^^ c ^^^ d) ^^^ mul 11 (mul 2 b ^^^ mul 3 c ^^^ d ^^^ a) ^^^
        mul 13 (mul 2 c ^^^ mul 3 d ^^^ a ^^^ b) ^^^ mul 9 (mul 2 d ^^^ mul 3 a ^^^ b ^^^ c) =
      a := by
  calc
    _ = (mul 14 (mul 2 a) ^^^ mul 11 a ^^^ mul 13 a ^^^ mul 9 (mul 3 a)) ^^^
        (mul 14 (mul 3 b) ^^^ mul 11 (mul 2 b) ^^^ mul 13 b ^^^ mul 9 b) ^^^
        (mul 14 c ^^^ mul 11 (mul 3 c) ^^^ mul 13 (mul 2 c) ^^^ mul 9 c) ^^^
        (mul 14 d ^^^ mul 11 d ^^^ mul 13 (mul 3 d) ^^^ mul 9 (mul 2 d)) := by
      simp only [mul_xor]
      ac_rfl
    _ = a := by
      rw [products_self, products_next, products_across, products_before, UInt8.xor_zero,
        UInt8.xor_zero, UInt8.xor_zero]

@[simp] theorem unmixColumns_mixColumns (s : State) : unmixColumns (mixColumns s) = s := by
  funext c r
  fin_cases r
  · exact unmix_column (s c 0) (s c 1) (s c 2) (s c 3)
  · exact unmix_column (s c 1) (s c 2) (s c 3) (s c 0)
  · exact unmix_column (s c 2) (s c 3) (s c 0) (s c 1)
  · exact unmix_column (s c 3) (s c 0) (s c 1) (s c 2)

theorem unrounds_rounds (inverse : Function.LeftInverse unsub sub) (keys : Nat → State)
    (round : Nat) (s : State) : unrounds unsub keys round (rounds sub keys round s) = s := by
  induction round with
  | zero => rfl
  | succ round ih =>
    rw [rounds, unrounds, addRoundKey_addRoundKey, unmixColumns_mixColumns,
      unshiftRows_shiftRows, subBytes_subBytes inverse, ih]

/-- A block comes back with the keys it was encrypted with. -/
theorem decrypt_encrypt (inverse : Function.LeftInverse unsub sub) (keys : Nat → State) (Nr : Nat)
    (s : State) : decrypt unsub keys Nr (encrypt sub keys Nr s) = s := by
  rw [decrypt, encrypt, addRoundKey_addRoundKey, unshiftRows_shiftRows, subBytes_subBytes inverse,
    unrounds_rounds inverse, addRoundKey_addRoundKey]

end CimArm.Rijndael
