import Mathlib.Data.List.TakeWhile
import Mathlib.Data.Nat.Digits.Lemmas

/-!
# Decimal numbers in ASCII

A natural number as the bytes of its decimal digits, the most significant first, and the
number that a line of such bytes spells (`value_ofNat`).  Numbers in a field of fixed width have
zeros in front.
-/

namespace CimArm.Decimal

open List

def digit (n : Nat) : UInt8 := UInt8.ofNat (48 + n)

def isDigit (c : UInt8) : Bool := 48 ≤ c ∧ c ≤ 57

def ofNat (n : Nat) : List UInt8 :=
  if n = 0 then [digit 0] else ((Nat.digits 10 n).map digit).reverse

/-- So many digits, with zeros in front. -/
def fixed : Nat → Nat → List UInt8
  | 0, _ => []
  | width + 1, n => fixed width (n / 10) ++ [digit (n % 10)]

/-- The number that the digits at the beginning spell. -/
def value (s : List UInt8) : Nat :=
  (s.takeWhile isDigit).foldl (fun n c => 10 * n + (c.toNat - 48)) 0

variable {n : Nat}

theorem isDigit_digit (small : n < 10) : isDigit (digit n) = true := by
  interval_cases n <;> decide

theorem toNat_digit (small : n < 10) : (digit n).toNat - 48 = n := by
  interval_cases n <;> decide

@[simp] theorem length_fixed (width n : Nat) : (fixed width n).length = width := by
  induction width generalizing n with
  | zero => rfl
  | succ width ih => rw [fixed, length_append, ih, length_singleton]

theorem isDigit_of_mem {c : UInt8} (hc : c ∈ ofNat n) : isDigit c = true := by
  rw [ofNat] at hc
  split_ifs at hc
  · obtain rfl := mem_singleton.1 hc
    decide
  · obtain ⟨d, hd, rfl⟩ := mem_map.1 (mem_reverse.1 hc)
    exact isDigit_digit (Nat.digits_lt_base (by decide) hd)

theorem ofNat_ne_nil (n : Nat) : ofNat n ≠ [] := by
  rw [ofNat]
  split_ifs with zero
  · exact cons_ne_nil _ _
  · simpa [Nat.digits_eq_nil_iff_eq_zero] using zero

theorem length_ofNat_le {k : Nat} (positive : 0 < k) (small : n < 10 ^ k) :
    (ofNat n).length ≤ k := by
  rw [ofNat]
  split_ifs
  · exact positive
  · rw [length_reverse, length_map]
    exact (Nat.digits_length_le_iff (by decide) n).2 small

theorem value_ofNat (n : Nat) : value (ofNat n) = n := by
  have whole : (ofNat n).takeWhile isDigit = ofNat n :=
    takeWhile_eq_self_iff.2 fun c hc => isDigit_of_mem hc
  rw [value, whole, ofNat]
  split_ifs with zero
  · exact zero.symm
  · have digits : ∀ d ∈ Nat.digits 10 n, d < 10 := fun d hd =>
      Nat.digits_lt_base (by decide) hd
    have spelled (l : List Nat) (small : ∀ d ∈ l, d < 10) :
        (l.map digit).reverse.foldl (fun n c => 10 * n + (c.toNat - 48)) 0 =
          Nat.ofDigits 10 l := by
      induction l with
      | nil => rfl
      | cons d l ih =>
        rw [map_cons, reverse_cons, foldl_append,
          ih fun a ha => small a (mem_cons_of_mem d ha), Nat.ofDigits_cons]
        show 10 * Nat.ofDigits 10 l + ((digit d).toNat - 48) = _
        rw [toNat_digit (small d mem_cons_self)]
        exact Nat.add_comm _ _
    rw [spelled _ digits, Nat.ofDigits_digits]

theorem value_zeros (k n : Nat) : value (List.replicate k (digit 0) ++ ofNat n) = n := by
  have digits : ∀ c ∈ List.replicate k (digit 0), isDigit c = true := by
    intro c hc
    rw [eq_of_mem_replicate hc]
    decide
  have zeros : ∀ k, (List.replicate k (digit 0)).foldl (fun n c => 10 * n + (c.toNat - 48)) 0 = 0 := by
    intro k
    induction k with
    | zero => rfl
    | succ k ih => exact ih
  conv_rhs => rw [← value_ofNat n]
  rw [value, takeWhile_append_of_pos digits, foldl_append, zeros, value]

end CimArm.Decimal
