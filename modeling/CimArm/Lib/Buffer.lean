import Mathlib.Data.List.Basic
import Mathlib.Data.Vector.Basic

/-!
# Buffers of bytes

A buffer has a fixed size; bytes are copied to a place in it, and read back.  What is read
from a place that was partly written is what was written, and then what was there before.
A C string read from a buffer ends at the first zero byte.
-/

namespace CimArm.Buffer

variable {n : Nat}

/-- Copy bytes to a place in a buffer. -/
def copy (target : Vector UInt8 n) (offset : Nat) (bytes : List UInt8) : Vector UInt8 n :=
  Vector.ofFn fun p : Fin n =>
    if offset ≤ p ∧ p < offset + bytes.length then bytes.getD (p - offset) 0 else target[p]

/-- `memcpy` of some bytes of a C string to a place. -/
def memcpy (target : Vector UInt8 n) (offset : Nat) (source : List UInt8) (size : Nat) :
    Vector UInt8 n :=
  copy target offset (source.take size)

/-- `strncpy` to a place, which fills up with zeros, and a terminator after it. -/
def strncpy (target : Vector UInt8 n) (offset : Nat) (source : List UInt8) (size : Nat) :
    Vector UInt8 n :=
  copy target offset (source.take size ++ List.replicate (size - source.length) 0 ++ [0])

/-- The bytes of a place. -/
def read (buffer : Vector UInt8 n) (offset len : Nat) : List UInt8 :=
  (List.range len).map fun j => buffer[offset + j]?.getD 0

/-- A C string: the bytes before the first zero. -/
def cString (bytes : List UInt8) : List UInt8 := bytes.takeWhile (· ≠ 0)

variable (target : Vector UInt8 n) {offset : Nat} {bytes : List UInt8} {len : Nat}

theorem copy_getElem (offset : Nat) (bytes : List UInt8) {p : Nat} (hp : p < n) :
    (copy target offset bytes)[p] =
      if offset ≤ p ∧ p < offset + bytes.length then bytes.getD (p - offset) 0 else target[p] := by
  simp [copy]

theorem copy_outside {p : Nat} (hp : p < n) (outside : ¬ (offset ≤ p ∧ p < offset + bytes.length)) :
    (copy target offset bytes)[p] = target[p] := by
  rw [copy_getElem, if_neg outside]

@[simp] theorem length_read (buffer : Vector UInt8 n) (offset len : Nat) :
    (read buffer offset len).length = len := by
  simp [read]

theorem read_getElem? (buffer : Vector UInt8 n) {j : Nat} (hp : offset + j < n) (hj : j < len) :
    (read buffer offset len)[j]? = some buffer[offset + j] := by
  rw [read, List.getElem?_map, List.getElem?_range hj]
  simp [hp]

/-- What is read from a place is what was copied there, and then what was there before. -/
theorem read_copy (inside : offset + len ≤ n) (fits : bytes.length ≤ len) :
    read (copy target offset bytes) offset len =
      bytes ++ (read target offset len).drop bytes.length := by
  apply List.ext_getElem?
  intro j
  rcases Nat.lt_or_ge j len with hj | hj
  · rw [read_getElem? _ (by omega) hj, copy_getElem]
    rcases Nat.lt_or_ge j bytes.length with written | rest
    · rw [if_pos (by omega), List.getElem?_append_left written, Nat.add_sub_cancel_left,
        List.getD_eq_getElem?_getD, List.getElem?_eq_getElem written]
      rfl
    · rw [if_neg (by omega), List.getElem?_append_right rest, List.getElem?_drop,
        Nat.add_sub_cancel' rest, read_getElem? _ (by omega) hj]
  · rw [List.getElem?_eq_none (by simpa using hj), List.getElem?_eq_none]
    simp
    omega

theorem take_copy (inside : offset + bytes.length ≤ n) :
    (copy target offset bytes).toList.take (offset + bytes.length) =
      target.toList.take offset ++ bytes := by
  apply List.ext_getElem?
  intro p
  rw [List.getElem?_take, List.getElem?_append, List.getElem?_take]
  have width : (target.toList.take offset).length = offset := by
    rw [List.length_take, Vector.length_toList]
    omega
  rw [width]
  rcases Nat.lt_or_ge p offset with before | behind
  · have hp : p < n := by omega
    rw [if_pos (by omega), if_pos before, if_pos before, Vector.getElem?_toList,
      Vector.getElem?_toList, Vector.getElem?_eq_getElem hp, Vector.getElem?_eq_getElem hp,
      copy_outside target hp (by omega)]
  · rw [if_neg (Nat.not_lt.2 behind)]
    rcases Nat.lt_or_ge p (offset + bytes.length) with written | outside
    · have hp : p < n := by omega
      have index : p - offset < bytes.length := by omega
      rw [if_pos written, Vector.getElem?_toList, Vector.getElem?_eq_getElem hp, copy_getElem,
        if_pos ⟨behind, written⟩, List.getD_eq_getElem?_getD, List.getElem?_eq_getElem index]
      rfl
    · rw [if_neg (Nat.not_lt.2 outside), List.getElem?_eq_none (by omega)]

theorem read_congr {buffer other : Vector UInt8 n}
    (same : ∀ p (hp : p < n), offset ≤ p → p < offset + len → buffer[p] = other[p]) :
    read buffer offset len = read other offset len := by
  apply List.map_congr_left
  intro j hj
  rw [List.mem_range] at hj
  rcases Nat.lt_or_ge (offset + j) n with hp | hp
  · simp [hp, same (offset + j) hp (by omega) (by omega)]
  · simp [Nat.not_lt.2 hp]

/-! ## C strings -/

theorem cString_append {text : List UInt8} (nonzero : 0 ∉ text) (rest : List UInt8) :
    cString (text ++ rest) = text ++ cString rest := by
  apply List.takeWhile_append_of_pos
  intro byte hbyte
  simp only [ne_eq, decide_not, Bool.not_eq_true', decide_eq_false_iff_not]
  rintro rfl
  exact nonzero hbyte

theorem cString_zero (rest : List UInt8) : cString (0 :: rest) = [] := by simp [cString]

theorem cString_eq_nil : cString bytes = [] ↔ bytes = [] ∨ bytes.head? = some 0 := by
  cases bytes with
  | nil => simp [cString]
  | cons byte rest =>
    by_cases zero : byte = 0
    · simp [cString, zero]
    · simp [cString, zero]

/-- A text followed by other bytes is read back exactly when they start with a terminator. -/
theorem cString_append_eq {text : List UInt8} (nonzero : 0 ∉ text) (rest : List UInt8) :
    cString (text ++ rest) = text ↔ rest = [] ∨ rest.head? = some 0 := by
  rw [cString_append nonzero, List.append_right_eq_self]
  exact cString_eq_nil

end CimArm.Buffer
