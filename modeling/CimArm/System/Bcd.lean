import CimArm.Cim.Defs
import CimArm.Lib.Bytes
import Mathlib.Logic.Function.Basic

/-!
# BCD strings

Two characters to a byte, the first one in the high nibble.  The nibble behind the last
character has all bits set, and where the string ends with a byte it is in the byte after it,
so that a string of even length takes a byte more than its characters do.  The reader looks
at a number of nibbles that it is given and ends before that at such a nibble.

* `bcdToAscii_asciiToBcd`: a string is read back whatever was in the memory before, if the
  reader looks at enough nibbles.
-/

namespace CimArm.Bcd

open List Function

/-! ## Writing and reading -/

/-- The characters that have a code of their own and are written. -/
def alphabet : List UInt8 := ['0', '1', '2', '3', '4', '5', '6', '7', '8', '9', '*', '#'].map
  Char.toUInt8

/-- The nibble of a character. -/
def code (c : UInt8) : UInt8 :=
  if c = '#'.toUInt8 then 11 else if c = '*'.toUInt8 then 10 else c - 48

/-- The loop of `asciiToBcd` with `p` at a byte of `dest`. -/
def encodeFrom (p : Nat) (dest : Nat → UInt8) : CString → Nat → UInt8
  | [] => dest
  | [c] => Function.update dest p ((code c <<< 4) + 0 + 0x0F)
  | c :: d :: source =>
    let dest := Function.update dest p ((code c <<< 4) + code d)
    if source.isEmpty then Function.update dest (p + 1) 0xFF else encodeFrom (p + 1) dest source

/-- The memory from `dest` on. -/
def asciiToBcd (dest : Nat → UInt8) (source : CString) : Nat → UInt8 :=
  encodeFrom 0 (Function.update dest 0 0xFF) source

def BcdToCharArray : List UInt8 :=
  ['0', '1', '2', '3', '4', '5', '6', '7', '8', '9', '*', '#', '?', 'C', 'r', '\x00'].map
    Char.toUInt8

/-- `GET_CHAR_FROM_BCD` -/
def getCharFromBcd (bcd : Nat → UInt8) (pos : Nat) : UInt8 :=
  if pos % 2 = 0 then BcdToCharArray.getD (bcd (pos / 2) >>> 4).toNat 0
  else BcdToCharArray.getD (bcd (pos / 2) &&& 0x0F).toNat 0

/-- The loop of `bcdToAscii` from the nibble `i` on, with so many left. -/
def decodeFrom (source : Nat → UInt8) (i : Nat) : Nat → CString
  | 0 => []
  | left + 1 =>
    let c := getCharFromBcd source i
    if c = 0 then [] else c :: decodeFrom source (i + 1) left

def bcdToAscii (source : Nat → UInt8) (maxLen : Nat) : CString := decodeFrom source 0 maxLen

/-- A string that a field of some bytes has room for. -/
structure BcdText (len : Nat) : Type where
  chars : CString
  written : ∀ c ∈ chars, c ∈ alphabet
  fits : chars.length ≤ len * 2

/-! ## One byte -/

variable {m : Nat → UInt8} {p : Nat} {c d : UInt8}

theorem getCharFromBcd_even (m : Nat → UInt8) (p : Nat) :
    getCharFromBcd m (2 * p) = BcdToCharArray.getD (m p >>> 4).toNat 0 := by
  have half : 2 * p / 2 = p := by omega
  rw [getCharFromBcd, if_pos (Nat.mul_mod_right 2 p), half]

theorem getCharFromBcd_odd (m : Nat → UInt8) (p : Nat) :
    getCharFromBcd m (2 * p + 1) = BcdToCharArray.getD (m p &&& 0x0F).toNat 0 := by
  have half : (2 * p + 1) / 2 = p := by omega
  rw [getCharFromBcd, if_neg (by omega), half]

theorem nibbles (hc : c ∈ alphabet) (hd : d ∈ alphabet) :
    BcdToCharArray.getD (((code c <<< 4) + code d) >>> 4).toNat 0 = c ∧
      BcdToCharArray.getD (((code c <<< 4) + code d) &&& 0x0F).toNat 0 = d := by
  have all : ∀ c ∈ alphabet, ∀ d ∈ alphabet,
      BcdToCharArray.getD (((code c <<< 4) + code d) >>> 4).toNat 0 = c ∧
        BcdToCharArray.getD (((code c <<< 4) + code d) &&& 0x0F).toNat 0 = d :=
    fun c hc => Bytes.forall_mem_of_all (Bytes.forall_mem_of_all (p := fun c =>
      alphabet.all fun d => BcdToCharArray.getD (((code c <<< 4) + code d) >>> 4).toNat 0 = c ∧
        BcdToCharArray.getD (((code c <<< 4) + code d) &&& 0x0F).toNat 0 = d) rfl c hc)
  exact all c hc d hd

theorem nibbles_last (hc : c ∈ alphabet) :
    BcdToCharArray.getD (((code c <<< 4) + 0 + 0x0F) >>> 4).toNat 0 = c ∧
      BcdToCharArray.getD (((code c <<< 4) + 0 + 0x0F) &&& 0x0F).toNat 0 = 0 :=
  Bytes.forall_mem_of_all (p := fun c =>
    BcdToCharArray.getD (((code c <<< 4) + 0 + 0x0F) >>> 4).toNat 0 = c ∧
      BcdToCharArray.getD (((code c <<< 4) + 0 + 0x0F) &&& 0x0F).toNat 0 = 0) rfl c hc

theorem ne_zero_of_mem (hc : c ∈ alphabet) : c ≠ 0 :=
  Bytes.forall_mem_of_all (p := fun c => c ≠ 0) rfl c hc

theorem decodeFrom_pair (hc : c ∈ alphabet) (hd : d ∈ alphabet)
    (byte : m p = (code c <<< 4) + code d) (left : Nat) :
    decodeFrom m (2 * p) (left + 2) = c :: d :: decodeFrom m (2 * (p + 1)) left := by
  obtain ⟨high, low⟩ := nibbles hc hd
  rw [decodeFrom, getCharFromBcd_even, byte, high, decodeFrom, getCharFromBcd_odd, byte, low]
  rw [if_neg (ne_zero_of_mem hc), if_neg (ne_zero_of_mem hd)]
  rfl

theorem decodeFrom_last (hc : c ∈ alphabet) (byte : m p = (code c <<< 4) + 0 + 0x0F)
    (left : Nat) : decodeFrom m (2 * p) (left + 1) = [c] := by
  obtain ⟨high, low⟩ := nibbles_last hc
  rw [decodeFrom, getCharFromBcd_even, byte, high]
  rw [if_neg (ne_zero_of_mem hc)]
  cases left with
  | zero => rfl
  | succ left => rw [decodeFrom, getCharFromBcd_odd, byte, low, if_pos rfl]

theorem decodeFrom_end (byte : m p = 0xFF) (left : Nat) : decodeFrom m (2 * p) left = [] := by
  cases left with
  | zero => rfl
  | succ left =>
    rw [decodeFrom, getCharFromBcd_even, byte]
    rfl

/-! ## A string -/

variable (dest : Nat → UInt8) (source : CString) {q : Nat}

theorem encodeFrom_before (before : q < p) : encodeFrom p dest source q = dest q := by
  fun_induction encodeFrom p dest source with
  | case1 => rfl
  | case2 => exact update_of_ne (Nat.ne_of_lt before) _ _
  | case3 p dest c d source dest' ended =>
    rw [update_of_ne (by omega)]
    exact update_of_ne (Nat.ne_of_lt before) _ _
  | case4 p dest c d source dest' more ih =>
    rw [ih (by omega)]
    exact update_of_ne (Nat.ne_of_lt before) _ _

theorem encodeFrom_after (after : p + source.length / 2 < q) :
    encodeFrom p dest source q = dest q := by
  fun_induction encodeFrom p dest source with
  | case1 => rfl
  | case2 p dest c => exact update_of_ne (by simp at after; omega) _ _
  | case3 p dest c d source dest' ended =>
    simp only [length_cons] at after
    rw [update_of_ne (by omega)]
    exact update_of_ne (by omega) _ _
  | case4 p dest c d source dest' more ih =>
    simp only [length_cons] at after
    rw [ih (by omega)]
    exact update_of_ne (by omega) _ _

theorem decodeFrom_encodeFrom (written : ∀ c ∈ source, c ∈ alphabet)
    (ended : source = [] → dest p = 0xFF) {left : Nat} (enough : source.length ≤ left) :
    decodeFrom (encodeFrom p dest source) (2 * p) left = source := by
  fun_induction encodeFrom p dest source generalizing left with
  | case1 p dest => exact decodeFrom_end (ended rfl) left
  | case2 p dest c =>
    obtain ⟨left, rfl⟩ := Nat.exists_eq_add_of_le' enough
    exact decodeFrom_last (written c mem_cons_self) (update_self ..) left
  | case3 p dest c d source dest' last =>
    obtain rfl := List.isEmpty_iff.1 last
    obtain ⟨left, rfl⟩ := Nat.exists_eq_add_of_le' enough
    have byte : Function.update dest' (p + 1) 0xFF p = (code c <<< 4) + code d := by
      rw [update_of_ne (by omega)]
      exact update_self ..
    rw [length_cons, length_singleton, decodeFrom_pair (written c mem_cons_self)
      (written d (by simp)) byte, decodeFrom_end (update_self ..)]
  | case4 p dest c d source dest' more ih =>
    obtain ⟨left, rfl⟩ := Nat.exists_eq_add_of_le' (show 2 ≤ left by
      simp only [length_cons] at enough
      omega)
    have byte : encodeFrom (p + 1) dest' source p = (code c <<< 4) + code d := by
      rw [encodeFrom_before _ _ (Nat.lt_succ_self p)]
      exact update_self ..
    rw [decodeFrom_pair (written c mem_cons_self) (written d (by simp)) byte]
    rw [ih (fun x hx => written x (by simp [hx])) (fun none => absurd (by simp [none]) more)
      (by simpa using enough)]

theorem bcdToAscii_asciiToBcd {len : Nat} (value : BcdText len) :
    bcdToAscii (asciiToBcd dest value.chars) (len * 2) = value.chars :=
  decodeFrom_encodeFrom _ _ value.written (fun _ => update_self ..) value.fits

theorem asciiToBcd_outside {len : Nat} (value : BcdText len) (outside : len < q) :
    asciiToBcd dest value.chars q = dest q := by
  have fits := value.fits
  rw [asciiToBcd, encodeFrom_after _ _ (by omega), update_of_ne (by omega)]

end CimArm.Bcd
