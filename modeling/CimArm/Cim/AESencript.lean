import CimArm.Lib.Buffer
import CimArm.Lib.Rijndael

/-!
# Encryption

The key and the text are copied to arrays that all calls share, the schedule of the key is made
in another one, and the result is left in an array as well.  The number of words of the key is
set at each call.

`Cipher_eq` says that what is left is the block that Rijndael gives with the key, whatever the
arrays held before, and `decrypt_Cipher` that the text can be found again.
-/

namespace CimArm.AESencript

open Buffer ByteField

/-- The arrays and numbers that the functions share. -/
structure Globals where
  Nr : Nat
  Nk : Nat
  input : Vector UInt8 16
  out : Vector UInt8 16
  state : Vector (Vector UInt8 4) 4
  RoundKey : Vector UInt8 240
  Key : Vector UInt8 32

def Nb : Nat := 4

def sbox : List UInt8 :=
  [
    0x63, 0x7c, 0x77, 0x7b, 0xf2, 0x6b, 0x6f, 0xc5, 0x30, 0x01, 0x67, 0x2b, 0xfe, 0xd7, 0xab, 0x76,
    0xca, 0x82, 0xc9, 0x7d, 0xfa, 0x59, 0x47, 0xf0, 0xad, 0xd4, 0xa2, 0xaf, 0x9c, 0xa4, 0x72, 0xc0,
    0xb7, 0xfd, 0x93, 0x26, 0x36, 0x3f, 0xf7, 0xcc, 0x34, 0xa5, 0xe5, 0xf1, 0x71, 0xd8, 0x31, 0x15,
    0x04, 0xc7, 0x23, 0xc3, 0x18, 0x96, 0x05, 0x9a, 0x07, 0x12, 0x80, 0xe2, 0xeb, 0x27, 0xb2, 0x75,
    0x09, 0x83, 0x2c, 0x1a, 0x1b, 0x6e, 0x5a, 0xa0, 0x52, 0x3b, 0xd6, 0xb3, 0x29, 0xe3, 0x2f, 0x84,
    0x53, 0xd1, 0x00, 0xed, 0x20, 0xfc, 0xb1, 0x5b, 0x6a, 0xcb, 0xbe, 0x39, 0x4a, 0x4c, 0x58, 0xcf,
    0xd0, 0xef, 0xaa, 0xfb, 0x43, 0x4d, 0x33, 0x85, 0x45, 0xf9, 0x02, 0x7f, 0x50, 0x3c, 0x9f, 0xa8,
    0x51, 0xa3, 0x40, 0x8f, 0x92, 0x9d, 0x38, 0xf5, 0xbc, 0xb6, 0xda, 0x21, 0x10, 0xff, 0xf3, 0xd2,
    0xcd, 0x0c, 0x13, 0xec, 0x5f, 0x97, 0x44, 0x17, 0xc4, 0xa7, 0x7e, 0x3d, 0x64, 0x5d, 0x19, 0x73,
    0x60, 0x81, 0x4f, 0xdc, 0x22, 0x2a, 0x90, 0x88, 0x46, 0xee, 0xb8, 0x14, 0xde, 0x5e, 0x0b, 0xdb,
    0xe0, 0x32, 0x3a, 0x0a, 0x49, 0x06, 0x24, 0x5c, 0xc2, 0xd3, 0xac, 0x62, 0x91, 0x95, 0xe4, 0x79,
    0xe7, 0xc8, 0x37, 0x6d, 0x8d, 0xd5, 0x4e, 0xa9, 0x6c, 0x56, 0xf4, 0xea, 0x65, 0x7a, 0xae, 0x08,
    0xba, 0x78, 0x25, 0x2e, 0x1c, 0xa6, 0xb4, 0xc6, 0xe8, 0xdd, 0x74, 0x1f, 0x4b, 0xbd, 0x8b, 0x8a,
    0x70, 0x3e, 0xb5, 0x66, 0x48, 0x03, 0xf6, 0x0e, 0x61, 0x35, 0x57, 0xb9, 0x86, 0xc1, 0x1d, 0x9e,
    0xe1, 0xf8, 0x98, 0x11, 0x69, 0xd9, 0x8e, 0x94, 0x9b, 0x1e, 0x87, 0xe9, 0xce, 0x55, 0x28, 0xdf,
    0x8c, 0xa1, 0x89, 0x0d, 0xbf, 0xe6, 0x42, 0x68, 0x41, 0x99, 0x2d, 0x0f, 0xb0, 0x54, 0xbb, 0x16]

def getSBoxValue (num : UInt8) : UInt8 := sbox.getD num.toNat 0

def Rcon : List UInt8 :=
  [
    0x8d, 0x01, 0x02, 0x04, 0x08, 0x10, 0x20, 0x40, 0x80, 0x1b, 0x36, 0x6c, 0xd8, 0xab, 0x4d, 0x9a,
    0x2f, 0x5e, 0xbc, 0x63, 0xc6, 0x97, 0x35, 0x6a, 0xd4, 0xb3, 0x7d, 0xfa, 0xef, 0xc5, 0x91, 0x39,
    0x72, 0xe4, 0xd3, 0xbd, 0x61, 0xc2, 0x9f, 0x25, 0x4a, 0x94, 0x33, 0x66, 0xcc, 0x83, 0x1d, 0x3a,
    0x74, 0xe8, 0xcb, 0x8d, 0x01, 0x02, 0x04, 0x08, 0x10, 0x20, 0x40, 0x80, 0x1b, 0x36, 0x6c, 0xd8,
    0xab, 0x4d, 0x9a, 0x2f, 0x5e, 0xbc, 0x63, 0xc6, 0x97, 0x35, 0x6a, 0xd4, 0xb3, 0x7d, 0xfa, 0xef,
    0xc5, 0x91, 0x39, 0x72, 0xe4, 0xd3, 0xbd, 0x61, 0xc2, 0x9f, 0x25, 0x4a, 0x94, 0x33, 0x66, 0xcc,
    0x83, 0x1d, 0x3a, 0x74, 0xe8, 0xcb, 0x8d, 0x01, 0x02, 0x04, 0x08, 0x10, 0x20, 0x40, 0x80, 0x1b,
    0x36, 0x6c, 0xd8, 0xab, 0x4d, 0x9a, 0x2f, 0x5e, 0xbc, 0x63, 0xc6, 0x97, 0x35, 0x6a, 0xd4, 0xb3,
    0x7d, 0xfa, 0xef, 0xc5, 0x91, 0x39, 0x72, 0xe4, 0xd3, 0xbd, 0x61, 0xc2, 0x9f, 0x25, 0x4a, 0x94,
    0x33, 0x66, 0xcc, 0x83, 0x1d, 0x3a, 0x74, 0xe8, 0xcb, 0x8d, 0x01, 0x02, 0x04, 0x08, 0x10, 0x20,
    0x40, 0x80, 0x1b, 0x36, 0x6c, 0xd8, 0xab, 0x4d, 0x9a, 0x2f, 0x5e, 0xbc, 0x63, 0xc6, 0x97, 0x35,
    0x6a, 0xd4, 0xb3, 0x7d, 0xfa, 0xef, 0xc5, 0x91, 0x39, 0x72, 0xe4, 0xd3, 0xbd, 0x61, 0xc2, 0x9f,
    0x25, 0x4a, 0x94, 0x33, 0x66, 0xcc, 0x83, 0x1d, 0x3a, 0x74, 0xe8, 0xcb, 0x8d, 0x01, 0x02, 0x04,
    0x08, 0x10, 0x20, 0x40, 0x80, 0x1b, 0x36, 0x6c, 0xd8, 0xab, 0x4d, 0x9a, 0x2f, 0x5e, 0xbc, 0x63,
    0xc6, 0x97, 0x35, 0x6a, 0xd4, 0xb3, 0x7d, 0xfa, 0xef, 0xc5, 0x91, 0x39, 0x72, 0xe4, 0xd3, 0xbd,
    0x61, 0xc2, 0x9f, 0x25, 0x4a, 0x94, 0x33, 0x66, 0xcc, 0x83, 0x1d, 0x3a, 0x74, 0xe8, 0xcb]

/-! ## The key -/

/-- A byte of an array. -/
def byte {n : Nat} (bytes : Vector UInt8 n) (k : Nat) : UInt8 := bytes[k]?.getD 0

/-- The index 0. -/
def index0 : Fin 4 := ⟨0, Nat.succ_pos 3⟩

def RotWord (temp : Vector UInt8 4) : Vector UInt8 4 := #v[temp[1], temp[2], temp[3], temp[index0]]

def SubWord (temp : Vector UInt8 4) : Vector UInt8 4 := temp.map getSBoxValue

/-- One word of the schedule. -/
def expandWord (Nk : Nat) (RoundKey : Vector UInt8 240) (i : Nat) : Vector UInt8 240 :=
  let temp := Vector.ofFn fun j : Fin 4 => byte RoundKey ((i - 1) * 4 + j)
  let temp :=
    if i % Nk = 0 then
      let temp := SubWord (RotWord temp)
      temp.set index0 (temp[index0] ^^^ Rcon.getD (i / Nk) 0)
    else if Nk > 6 ∧ i % Nk = 4 then SubWord temp
    else temp
  copy RoundKey (i * 4)
    (List.ofFn fun j : Fin 4 => byte RoundKey ((i - Nk) * 4 + j) ^^^ temp[j])

def KeyExpansion (g : Globals) : Globals :=
  let RoundKey := (List.range g.Nk).foldl
    (fun RoundKey i => copy RoundKey (i * 4) (List.ofFn fun j : Fin 4 => byte g.Key (i * 4 + j)))
    g.RoundKey
  { g with
    RoundKey := (List.range' g.Nk (Nb * (g.Nr + 1) - g.Nk)).foldl (expandWord g.Nk) RoundKey }

/-! ## The rounds -/

def AddRoundKey (round : Nat) (g : Globals) : Globals :=
  { g with
    state := Vector.ofFn fun j : Fin 4 => Vector.ofFn fun i : Fin 4 =>
      g.state[j][i] ^^^ byte g.RoundKey (round * Nb * 4 + i * Nb + j) }

def SubBytes (g : Globals) : Globals :=
  { g with state := g.state.map fun row => row.map getSBoxValue }

def ShiftRows (g : Globals) : Globals :=
  let row1 := g.state[1]
  let row2 := g.state[2]
  let row3 := g.state[3]
  { g with
    state := #v[g.state[index0], #v[row1[1], row1[2], row1[3], row1[index0]],
      #v[row2[2], row2[3], row2[index0], row2[1]], #v[row3[3], row3[index0], row3[1], row3[2]]] }

def xtime (x : UInt8) : UInt8 := (x <<< 1) ^^^ (((x >>> 7) &&& 1) * 0x1b)

/-- The assignments to one column. -/
def mixColumn (a0 a1 a2 a3 : UInt8) : Vector UInt8 4 :=
  let Tmp := a0 ^^^ a1 ^^^ a2 ^^^ a3
  #v[a0 ^^^ (xtime (a0 ^^^ a1) ^^^ Tmp), a1 ^^^ (xtime (a1 ^^^ a2) ^^^ Tmp),
    a2 ^^^ (xtime (a2 ^^^ a3) ^^^ Tmp), a3 ^^^ (xtime (a3 ^^^ a0) ^^^ Tmp)]

def MixColumns (g : Globals) : Globals :=
  { g with
    state := Vector.ofFn fun j : Fin 4 => Vector.ofFn fun i : Fin 4 =>
      (mixColumn g.state[index0][i] g.state[1][i] g.state[2][i] g.state[3][i])[j] }

/-- The body of the loop over the rounds. -/
def Round (g : Globals) (round : Nat) : Globals :=
  AddRoundKey round (MixColumns (ShiftRows (SubBytes g)))

/-- The size of the key is 128 bits. -/
def Cipher (plainText useKey : Vector UInt8 16) (g : Globals) : Globals :=
  let Nk := 128 / 32
  let g := { g with
    Nk := Nk
    Nr := Nk + 6
    Key := copy g.Key 0 useKey.toList
    input := plainText }
  let g := KeyExpansion g
  let g := { g with
    state := Vector.ofFn fun j : Fin 4 => Vector.ofFn fun i : Fin 4 => byte g.input (i * 4 + j) }
  let g := AddRoundKey 0 g
  let g := (List.range' 1 (g.Nr - 1)).foldl Round g
  let g := AddRoundKey g.Nr (ShiftRows (SubBytes g))
  { g with
    out := Vector.ofFn fun n : Fin 16 => g.state[n.val % 4][n.val / 4] }

/-! ## The tables -/

theorem Rcon_eq {i : Nat} (inside : i < 255) : Rcon.getD i 0 = Rijndael.rcon i := by
  have next : ∀ i < 254, Rcon.getD (i + 1) 0 = ByteField.xtime (Rcon.getD i 0) := by
    decide +kernel
  induction i with
  | zero => rfl
  | succ i ih => rw [next i (by omega), ih (by omega), Rijndael.rcon]

/-- The bytes back from the table. -/
def unsbox : List UInt8 :=
  [
    0x52, 0x09, 0x6a, 0xd5, 0x30, 0x36, 0xa5, 0x38, 0xbf, 0x40, 0xa3, 0x9e, 0x81, 0xf3, 0xd7, 0xfb,
    0x7c, 0xe3, 0x39, 0x82, 0x9b, 0x2f, 0xff, 0x87, 0x34, 0x8e, 0x43, 0x44, 0xc4, 0xde, 0xe9, 0xcb,
    0x54, 0x7b, 0x94, 0x32, 0xa6, 0xc2, 0x23, 0x3d, 0xee, 0x4c, 0x95, 0x0b, 0x42, 0xfa, 0xc3, 0x4e,
    0x08, 0x2e, 0xa1, 0x66, 0x28, 0xd9, 0x24, 0xb2, 0x76, 0x5b, 0xa2, 0x49, 0x6d, 0x8b, 0xd1, 0x25,
    0x72, 0xf8, 0xf6, 0x64, 0x86, 0x68, 0x98, 0x16, 0xd4, 0xa4, 0x5c, 0xcc, 0x5d, 0x65, 0xb6, 0x92,
    0x6c, 0x70, 0x48, 0x50, 0xfd, 0xed, 0xb9, 0xda, 0x5e, 0x15, 0x46, 0x57, 0xa7, 0x8d, 0x9d, 0x84,
    0x90, 0xd8, 0xab, 0x00, 0x8c, 0xbc, 0xd3, 0x0a, 0xf7, 0xe4, 0x58, 0x05, 0xb8, 0xb3, 0x45, 0x06,
    0xd0, 0x2c, 0x1e, 0x8f, 0xca, 0x3f, 0x0f, 0x02, 0xc1, 0xaf, 0xbd, 0x03, 0x01, 0x13, 0x8a, 0x6b,
    0x3a, 0x91, 0x11, 0x41, 0x4f, 0x67, 0xdc, 0xea, 0x97, 0xf2, 0xcf, 0xce, 0xf0, 0xb4, 0xe6, 0x73,
    0x96, 0xac, 0x74, 0x22, 0xe7, 0xad, 0x35, 0x85, 0xe2, 0xf9, 0x37, 0xe8, 0x1c, 0x75, 0xdf, 0x6e,
    0x47, 0xf1, 0x1a, 0x71, 0x1d, 0x29, 0xc5, 0x89, 0x6f, 0xb7, 0x62, 0x0e, 0xaa, 0x18, 0xbe, 0x1b,
    0xfc, 0x56, 0x3e, 0x4b, 0xc6, 0xd2, 0x79, 0x20, 0x9a, 0xdb, 0xc0, 0xfe, 0x78, 0xcd, 0x5a, 0xf4,
    0x1f, 0xdd, 0xa8, 0x33, 0x88, 0x07, 0xc7, 0x31, 0xb1, 0x12, 0x10, 0x59, 0x27, 0x80, 0xec, 0x5f,
    0x60, 0x51, 0x7f, 0xa9, 0x19, 0xb5, 0x4a, 0x0d, 0x2d, 0xe5, 0x7a, 0x9f, 0x93, 0xc9, 0x9c, 0xef,
    0xa0, 0xe0, 0x3b, 0x4d, 0xae, 0x2a, 0xf5, 0xb0, 0xc8, 0xeb, 0xbb, 0x3c, 0x83, 0x53, 0x99, 0x61,
    0x17, 0x2b, 0x04, 0x7e, 0xba, 0x77, 0xd6, 0x26, 0xe1, 0x69, 0x14, 0x63, 0x55, 0x21, 0x0c, 0x7d]

def unsub (num : UInt8) : UInt8 := unsbox.getD num.toNat 0

theorem unsub_getSBoxValue : Function.LeftInverse unsub getSBoxValue := by
  apply forall_byte
  decide +kernel

/-- The rows of the table come from a map of bits. -/
def affine (a : UInt8) : UInt8 :=
  ((a <<< 1) ||| (a >>> 7)) ^^^ ((a <<< 3) ||| (a >>> 5)) ^^^ ((a <<< 6) ||| (a >>> 2)) ^^^ 0x05

/-- The table has the inverses of the field under a map of bits. -/
theorem mul_affine_getSBoxValue (a : UInt8) :
    mul a (affine (getSBoxValue a)) = if a = 0 then 0 else 1 := by
  revert a
  apply forall_byte
  decide +kernel

theorem xtime_eq (x : UInt8) : xtime x = ByteField.xtime x := by
  revert x
  apply forall_byte
  decide +kernel

/-! ## Bytes of an array -/

theorem byte_copy {n : Nat} (target : Vector UInt8 n) (offset : Nat) (bytes : List UInt8) {k : Nat}
    (inside : k < n) :
    byte (copy target offset bytes) k =
      if offset ≤ k ∧ k < offset + bytes.length then bytes.getD (k - offset) 0
      else byte target k := by
  rw [byte, byte, Vector.getElem?_eq_getElem inside, Vector.getElem?_eq_getElem inside,
    Option.getD_some, Option.getD_some, copy_getElem target offset bytes inside]

theorem byte_copy_word (RoundKey : Vector UInt8 240) (i : Nat) (w : Rijndael.Word) (j : Fin 4)
    (inside : i < 60) : byte (copy RoundKey (i * 4) (List.ofFn w)) (i * 4 + j) = w j := by
  have below := j.isLt
  rw [byte_copy RoundKey (i * 4) (List.ofFn w) (by omega), List.length_ofFn, if_pos (by omega),
    Nat.add_sub_cancel_left, List.getD_eq_getElem?_getD, List.getElem?_ofFn, dif_pos below]
  rfl

theorem byte_copy_other (RoundKey : Vector UInt8 240) {i m : Nat} (w : Rijndael.Word) (j : Fin 4)
    (inside : m < 60) (other : m ≠ i) :
    byte (copy RoundKey (i * 4) (List.ofFn w)) (m * 4 + j) = byte RoundKey (m * 4 + j) := by
  have below := j.isLt
  rw [byte_copy RoundKey (i * 4) (List.ofFn w) (by omega), List.length_ofFn, if_neg (by omega)]

/-! ## The schedule -/

/-- The words of a key. -/
def keyWord (Key : Vector UInt8 32) (m : Nat) : Rijndael.Word := fun j => byte Key (m * 4 + j)

/-- The words that have been made so far. -/
def Expanded (Nk : Nat) (Key : Vector UInt8 32) (count : Nat) (RoundKey : Vector UInt8 240) :
    Prop :=
  ∀ m < count, ∀ j : Fin 4,
    byte RoundKey (m * 4 + j) = Rijndael.word getSBoxValue Nk (keyWord Key) m j

theorem temp_eq (Nk : Nat) {i : Nat} (few : i / Nk < 255) (before : Vector UInt8 4) (j : Fin 4) :
    (if i % Nk = 0 then
        (SubWord (RotWord before)).set index0
          ((SubWord (RotWord before))[index0] ^^^ Rcon.getD (i / Nk) 0)
      else if Nk > 6 ∧ i % Nk = 4 then SubWord before
      else before)[j] =
      Rijndael.schedule getSBoxValue Nk i (fun j => before[j]) j := by
  rw [Rijndael.schedule, Rcon_eq few]
  split_ifs with first fifth
  all_goals fin_cases j <;> simp_all [SubWord, RotWord, index0]

theorem Expanded.word {Nk i : Nat} {Key : Vector UInt8 32} {RoundKey : Vector UInt8 240}
    (expanded : Expanded Nk Key i RoundKey) (some : 0 < Nk) (behind : Nk ≤ i) (inside : i < 60) :
    Expanded Nk Key (i + 1) (expandWord Nk RoundKey i) := by
  intro m hm j
  rcases Nat.lt_or_eq_of_le (Nat.lt_succ_iff.1 hm) with earlier | here
  · rw [expandWord, byte_copy_other RoundKey _ j (by omega) (by omega)]
    exact expanded m earlier j
  · subst here
    have few : m / Nk < 255 := Nat.lt_of_le_of_lt (Nat.div_le_self m Nk) (by omega)
    have before : (fun j : Fin 4 => (Vector.ofFn fun j : Fin 4 =>
        byte RoundKey ((m - 1) * 4 + j))[j]) =
        Rijndael.word getSBoxValue Nk (keyWord Key) (m - 1) := by
      funext j
      rw [Fin.getElem_fin, Vector.getElem_ofFn]
      exact expanded (m - 1) (by omega) j
    rw [expandWord, byte_copy_word RoundKey m _ j inside]
    dsimp only
    rw [temp_eq Nk few, before, expanded (m - Nk) (by omega) j, Rijndael.word_next _ some behind j]

/-- The schedule is the one of the key, whatever the array held. -/
theorem expanded_KeyExpansion (g : Globals) (some : 0 < g.Nk) (room : Nb * (g.Nr + 1) ≤ 60)
    (many : g.Nk ≤ Nb * (g.Nr + 1)) :
    Expanded g.Nk g.Key (Nb * (g.Nr + 1)) (KeyExpansion g).RoundKey := by
  have first : ∀ count ≤ g.Nk, Expanded g.Nk g.Key count ((List.range count).foldl
      (fun RoundKey i => copy RoundKey (i * 4) (List.ofFn fun j : Fin 4 => byte g.Key (i * 4 + j)))
      g.RoundKey) := by
    intro count
    induction count with
    | zero =>
      intro _ m hm
      exact absurd hm (Nat.not_lt_zero m)
    | succ count ih =>
      intro inside m hm j
      rw [List.range_succ, List.foldl_append, List.foldl_cons, List.foldl_nil]
      rcases Nat.lt_or_eq_of_le (Nat.lt_succ_iff.1 hm) with earlier | here
      · rw [byte_copy_other _ _ j (by omega) (by omega)]
        exact ih (by omega) m earlier j
      · subst here
        rw [byte_copy_word _ m _ j (by omega), Rijndael.word_key _ (by omega), keyWord]
  have others : ∀ count ≤ Nb * (g.Nr + 1) - g.Nk, ∀ RoundKey, Expanded g.Nk g.Key g.Nk RoundKey →
      Expanded g.Nk g.Key (g.Nk + count)
        ((List.range' g.Nk count).foldl (expandWord g.Nk) RoundKey) := by
    intro count
    induction count with
    | zero =>
      intro _ RoundKey expanded
      exact expanded
    | succ count ih =>
      intro inside RoundKey expanded
      rw [List.range'_concat, List.foldl_append, List.foldl_cons, List.foldl_nil, Nat.one_mul]
      exact (ih (by omega) RoundKey expanded).word some (by omega) (by omega)
  have all := others _ (Nat.le_refl _) _ (first g.Nk (Nat.le_refl _))
  rwa [Nat.add_sub_cancel' many] at all

/-! ## The rounds as those of Rijndael -/

/-- The columns of the state. -/
def columns (g : Globals) : Rijndael.State := fun c r => g.state[r][c]

theorem columns_AddRoundKey {g : Globals} {Key : Vector UInt8 32} {count round : Nat}
    (expanded : Expanded g.Nk Key count g.RoundKey) (inside : 4 * round + 4 ≤ count) :
    columns (AddRoundKey round g) =
      Rijndael.addRoundKey (Rijndael.roundKey getSBoxValue g.Nk (keyWord Key) round)
        (columns g) := by
  funext c r
  have below := c.isLt
  have place : round * Nb * 4 + c.val * Nb + r = (4 * round + c) * 4 + r := by
    rw [Nb]
    omega
  rw [columns, Rijndael.addRoundKey, Rijndael.roundKey, ← expanded (4 * round + c) (by omega) r]
  simp only [AddRoundKey, Fin.getElem_fin, Vector.getElem_ofFn, place]
  rfl

theorem columns_SubBytes (g : Globals) :
    columns (SubBytes g) = Rijndael.subBytes getSBoxValue (columns g) := by
  funext c r
  simp only [columns, SubBytes, Rijndael.subBytes, Fin.getElem_fin, Vector.getElem_map]

theorem columns_ShiftRows (g : Globals) :
    columns (ShiftRows g) = Rijndael.shiftRows (columns g) := by
  funext c r
  fin_cases r <;> fin_cases c <;> rfl

theorem mixed_byte {a b c d Tmp : UInt8} (sum : Tmp = a ^^^ b ^^^ c ^^^ d) :
    a ^^^ (xtime (a ^^^ b) ^^^ Tmp) = mul 2 a ^^^ mul 3 b ^^^ c ^^^ d := by
  rw [sum, xtime_eq, xtime_xor, two_mul, three_mul]
  calc
    _ = (ByteField.xtime a ^^^ (ByteField.xtime b ^^^ b) ^^^ c ^^^ d) ^^^ a ^^^ a := by ac_rfl
    _ = _ := xor_self_right _ _

theorem columns_MixColumns (g : Globals) :
    columns (MixColumns g) = Rijndael.mixColumns (columns g) := by
  funext c r
  have column : columns (MixColumns g) c r =
      (mixColumn (columns g c 0) (columns g c 1) (columns g c 2) (columns g c 3))[r] := by
    simp only [columns, MixColumns, Fin.getElem_fin, Vector.getElem_ofFn]
    rfl
  rw [column]
  generalize columns g = s
  fin_cases r
  · exact mixed_byte rfl
  · exact mixed_byte (a := s c 1) (b := s c 2) (c := s c 3) (d := s c 0) (by ac_rfl)
  · exact mixed_byte (a := s c 2) (b := s c 3) (c := s c 0) (d := s c 1) (by ac_rfl)
  · exact mixed_byte (a := s c 3) (b := s c 0) (c := s c 1) (d := s c 2) (by ac_rfl)

/-! ## The cipher -/

/-- The columns of a block of bytes. -/
def block (bytes : Vector UInt8 16) : Rijndael.State := fun c r => byte bytes (c * 4 + r)

/-- The keys of the rounds for a key of 128 bits. -/
def keys (useKey : Vector UInt8 16) : Nat → Rijndael.State :=
  Rijndael.roundKey getSBoxValue 4 fun m j => byte useKey (m * 4 + j)

/-- The rounds change nothing but the state. -/
structure SameKeys (g h : Globals) : Prop where
  Nk : h.Nk = g.Nk
  Nr : h.Nr = g.Nr
  RoundKey : h.RoundKey = g.RoundKey

theorem columns_rounds {g : Globals} {Key : Vector UInt8 32} {count : Nat}
    (expanded : Expanded g.Nk Key count g.RoundKey) (round : Nat)
    (inside : 4 * round + 4 ≤ count) :
    SameKeys g ((List.range' 1 round).foldl Round g) ∧
    columns ((List.range' 1 round).foldl Round g) =
      Rijndael.rounds getSBoxValue (Rijndael.roundKey getSBoxValue g.Nk (keyWord Key)) round
        (columns g) := by
  induction round with
  | zero => exact ⟨⟨rfl, rfl, rfl⟩, rfl⟩
  | succ round ih =>
    obtain ⟨same, rounds⟩ := ih (by omega)
    rw [List.range'_concat, List.foldl_append, List.foldl_cons, List.foldl_nil, Nat.one_mul,
      Nat.add_comm 1 round]
    generalize (List.range' 1 round).foldl Round g = h at same rounds
    have key : Expanded (MixColumns (ShiftRows (SubBytes h))).Nk Key count
        (MixColumns (ShiftRows (SubBytes h))).RoundKey := by
      change Expanded h.Nk Key count h.RoundKey
      rw [same.Nk, same.RoundKey]
      exact expanded
    refine ⟨⟨same.Nk, same.Nr, same.RoundKey⟩, ?_⟩
    rw [Round, columns_AddRoundKey key inside, columns_MixColumns, columns_ShiftRows,
      columns_SubBytes, rounds, Rijndael.rounds]
    change Rijndael.addRoundKey (Rijndael.roundKey getSBoxValue h.Nk _ _) _ = _
    rw [same.Nk]

/-- The keys of the rounds are those of the key that was copied. -/
theorem keys_eq (useKey : Vector UInt8 16) (Key : Vector UInt8 32) :
    Rijndael.roundKey getSBoxValue 4 (keyWord (copy Key 0 useKey.toList)) = keys useKey := by
  have same : ∀ m < 4, keyWord (copy Key 0 useKey.toList) m = fun j : Fin 4 =>
      byte useKey (m * 4 + j) := by
    intro m hm
    funext j
    have below := j.isLt
    have inside : m * 4 + j.val < 16 := by omega
    rw [keyWord, byte_copy Key 0 _ (by omega), Vector.length_toList, if_pos (by omega), byte,
      Nat.sub_zero, List.getD_eq_getElem?_getD, Vector.getElem?_toList]
  funext round c
  exact Rijndael.word_congr (by omega) same _

theorem columns_input (g : Globals) :
    columns { g with
      state := Vector.ofFn fun j : Fin 4 => Vector.ofFn fun i : Fin 4 => byte g.input (i * 4 + j) } =
      block g.input := by
  funext c r
  simp only [columns, block, Fin.getElem_fin, Vector.getElem_ofFn]

theorem block_ofFn (s : Rijndael.State) :
    block (Vector.ofFn fun n : Fin 16 => s ⟨n / 4, by omega⟩ ⟨n % 4, by omega⟩) = s := by
  funext c r
  have column := c.isLt
  have row := r.isLt
  have inside : c.val * 4 + r.val < 16 := by omega
  have rest : (c.val * 4 + r.val) % 4 = r.val := by omega
  have quotient : (c.val * 4 + r.val) / 4 = c.val := by omega
  rw [block, byte, Vector.getElem?_eq_getElem inside, Vector.getElem_ofFn, Option.getD_some]
  simp only [rest, quotient]

theorem block_output (g : Globals) :
    block (Vector.ofFn fun n : Fin 16 => g.state[n.val % 4][n.val / 4]) = columns g :=
  block_ofFn (columns g)

theorem block_Cipher (plainText useKey : Vector UInt8 16) (g : Globals) :
    block (Cipher plainText useKey g).out =
      Rijndael.encrypt getSBoxValue (keys useKey) 10 (block plainText) := by
  rw [Cipher]
  dsimp only
  generalize start : ({ g with
    Nk := 128 / 32, Nr := 128 / 32 + 6, Key := copy g.Key 0 useKey.toList,
    input := plainText } : Globals) = g₁
  have Nk : g₁.Nk = 4 := by rw [← start]
  have Nr : g₁.Nr = 10 := by rw [← start]
  have key : keyWord g₁.Key = keyWord (copy g.Key 0 useKey.toList) := by rw [← start]
  have input : g₁.input = plainText := by rw [← start]
  have schedule := expanded_KeyExpansion g₁ (by omega) (by rw [Nr, Nb]; omega)
    (by rw [Nr, Nk, Nb]; omega)
  generalize first : ({ KeyExpansion g₁ with
    state := Vector.ofFn fun j : Fin 4 => Vector.ofFn fun i : Fin 4 =>
      byte (KeyExpansion g₁).input (i * 4 + j) } : Globals) = g₂
  have text : columns g₂ = block plainText := by
    rw [← first, columns_input, ← input]
    rfl
  have expanded : Expanded g₂.Nk g₁.Key 44 g₂.RoundKey := by
    rw [← first]
    rw [Nr, Nb] at schedule
    exact schedule
  have rounds₂ : g₂.Nk = 4 ∧ g₂.Nr = 10 := by
    rw [← first]
    exact ⟨Nk, Nr⟩
  have added := @columns_AddRoundKey _ _ _ 0 expanded (by omega)
  have expanded' : Expanded (AddRoundKey 0 g₂).Nk g₁.Key 44 (AddRoundKey 0 g₂).RoundKey := expanded
  obtain ⟨same, rounds⟩ := columns_rounds expanded' ((AddRoundKey 0 g₂).Nr - 1) (by
    change 4 * (g₂.Nr - 1) + 4 ≤ 44
    omega)
  generalize (List.range' 1 ((AddRoundKey 0 g₂).Nr - 1)).foldl Round (AddRoundKey 0 g₂) = h
    at same rounds ⊢
  have last : Expanded (ShiftRows (SubBytes h)).Nk g₁.Key 44 (ShiftRows (SubBytes h)).RoundKey := by
    change Expanded h.Nk g₁.Key 44 h.RoundKey
    rw [same.Nk, same.RoundKey]
    exact expanded
  have Nk' : (ShiftRows (SubBytes h)).Nk = 4 := same.Nk.trans rounds₂.1
  have Nr' : h.Nr = 10 := same.Nr.trans rounds₂.2
  rw [block_output, columns_AddRoundKey last (by omega), columns_ShiftRows, columns_SubBytes,
    rounds, added, text, Nk', Nr', Rijndael.encrypt]
  change Rijndael.addRoundKey _ (Rijndael.shiftRows (Rijndael.subBytes _ (Rijndael.rounds _
    (Rijndael.roundKey _ g₂.Nk _) (g₂.Nr - 1) _))) = _
  rw [rounds₂.1, rounds₂.2, key, keys_eq]

theorem block_injective : Function.Injective block := by
  intro a b same
  apply Vector.ext
  intro n inside
  have here := congrFun (congrFun same ⟨n / 4, by omega⟩) ⟨n % 4, by omega⟩
  have place : n / 4 * 4 + n % 4 = n := by omega
  simp only [block, byte, place, Vector.getElem?_eq_getElem inside, Option.getD_some] at here
  exact here

/-- What is left is what Rijndael gives, whatever the arrays held. -/
theorem Cipher_eq (plainText useKey : Vector UInt8 16) (g : Globals) :
    (Cipher plainText useKey g).out = Vector.ofFn fun n : Fin 16 =>
      Rijndael.encrypt getSBoxValue (keys useKey) 10 (block plainText) ⟨n / 4, by omega⟩
        ⟨n % 4, by omega⟩ := by
  apply block_injective
  rw [block_Cipher, block_ofFn]

/-- With the key, the text is found again from what is left. -/
theorem decrypt_Cipher (plainText useKey : Vector UInt8 16) (g : Globals) :
    Rijndael.decrypt unsub (keys useKey) 10 (block (Cipher plainText useKey g).out) =
      block plainText := by
  rw [block_Cipher, Rijndael.decrypt_encrypt unsub_getSBoxValue]

theorem Cipher_out (plainText useKey : Vector UInt8 16) (g h : Globals) :
    (Cipher plainText useKey g).out = (Cipher plainText useKey h).out := by
  apply block_injective
  rw [block_Cipher, block_Cipher]

end CimArm.AESencript
