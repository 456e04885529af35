import CimArm.Dao.Fields
import CimArm.Lib.Decimal
import Mathlib.Data.List.TakeWhile
import Mathlib.Tactic.SplitIfs

/-!
# Licences

A licence has two lines of blocks.  The first is made of the mask of a machine, one block for
each service; in the second one each block has the value of its service added.  The text is
encrypted byte by byte and kept in a file.  To check a mask, its blocks are printed again and
compared with the first line; to find the value of a service, both lines are read and what was
added is taken out.  Blocks are `short`, and the texts are put together in buffers.

* `makeBlocks_iff`: which masks have blocks, and how many there may be.
* `readBlocks_text`: what is read back from a line, where a negative block is two.
* `roundTrip_iff`: when a licence is made, checked and read back without leaving a buffer.
-/

namespace CimArm.LicUtil

open List

/-! ## Encryption -/

def encryptMatrix : List UInt8 :=
  [167, 243, 104, 103, 169, 18, 36, 185, 137, 131, 204, 72, 147, 96, 28, 161, 162, 34, 231, 201,
   77, 149, 230, 199, 192, 11, 136, 220, 23, 227, 148, 60, 241, 228, 7, 174, 69, 83, 31, 255, 209,
   124, 65, 78, 146, 46, 5, 216, 66, 84, 180, 89, 178, 212, 9, 115, 102, 87, 29, 198, 42, 68, 129,
   94, 236, 155, 39, 197, 151, 41, 160, 32, 163, 80, 186, 164, 49, 108, 120, 139, 122, 109, 43,
   184, 152, 98, 219, 217, 193, 233, 76, 112, 252, 150, 239, 251, 138, 99, 58, 126, 156, 0, 203,
   25, 218, 187, 254, 229, 116, 240, 153, 248, 97, 135, 222, 38, 125, 91, 225, 62, 133, 13, 213,
   189, 242, 33, 53, 118, 176, 190, 130, 50, 234, 51, 27, 56, 172, 44, 30, 194, 158, 143, 26, 15,
   12, 24, 165, 170, 235, 64, 117, 249, 221, 154, 157, 119, 171, 205, 10, 253, 67, 232, 195, 173,
   6, 200, 4, 175, 196, 105, 226, 224, 59, 106, 211, 61, 74, 237, 90, 145, 207, 93, 75, 95, 247,
   179, 1, 48, 45, 238, 132, 210, 144, 246, 113, 142, 114, 22, 57, 177, 52, 85, 3, 134, 168, 71,
   159, 127, 215, 244, 86, 208, 2, 81, 14, 182, 123, 107, 191, 141, 40, 214, 183, 128, 206, 250,
   73, 35, 181, 37, 16, 8, 202, 100, 166, 47, 140, 19, 223, 88, 82, 101, 20, 21, 54, 110, 245, 17,
   121, 79, 55, 111, 92, 188, 63, 70]

def decryptMatrix : List UInt8 :=
  [101, 186, 212, 202, 166, 46, 164, 34, 231, 54, 158, 25, 144, 121, 214, 143, 230, 247, 5, 237,
   242, 243, 197, 28, 145, 103, 142, 134, 14, 58, 138, 38, 71, 125, 17, 227, 6, 229, 115, 66, 220,
   69, 60, 82, 137, 188, 45, 235, 187, 76, 131, 133, 200, 126, 244, 250, 135, 198, 98, 172, 31,
   175, 119, 254, 149, 42, 48, 160, 61, 36, 255, 205, 11, 226, 176, 182, 90, 20, 43, 249, 73, 213,
   240, 37, 49, 201, 210, 57, 239, 51, 178, 117, 252, 181, 63, 183, 13, 112, 85, 97, 233, 241, 56,
   3, 2, 169, 173, 217, 77, 81, 245, 251, 91, 194, 196, 55, 108, 150, 127, 155, 78, 248, 80, 216,
   41, 116, 99, 207, 223, 62, 130, 9, 190, 120, 203, 113, 26, 8, 96, 79, 236, 219, 195, 141, 192,
   179, 44, 12, 30, 21, 93, 68, 84, 110, 153, 65, 100, 154, 140, 206, 70, 15, 16, 72, 75, 146,
   234, 0, 204, 4, 147, 156, 136, 163, 35, 167, 128, 199, 52, 185, 50, 228, 215, 222, 83, 7, 74,
   105, 253, 123, 129, 218, 24, 88, 139, 162, 168, 67, 59, 23, 165, 19, 232, 102, 10, 157, 224,
   180, 211, 40, 191, 174, 53, 122, 221, 208, 47, 87, 104, 86, 27, 152, 114, 238, 171, 118, 170,
   29, 33, 107, 22, 18, 161, 89, 132, 148, 64, 177, 189, 94, 109, 32, 124, 1, 209, 246, 193, 184,
   111, 151, 225, 95, 92, 159, 106, 39]

def encryptSimpleLic (source : List UInt8) : List UInt8 :=
  source.map fun c => encryptMatrix.getD c.toNat 0

def decryptSimpleLic (source : List UInt8) : List UInt8 :=
  source.map fun c => decryptMatrix.getD c.toNat 0

/-- The text of a file, up to its first zero. -/
def decryptFileLic (file : List UInt8) : List UInt8 :=
  (decryptSimpleLic file).takeWhile (· ≠ 0)

/-- `createFile` writes a text up to its first zero. -/
def createFile (text : List UInt8) : List UInt8 := text.takeWhile (· ≠ 0)

/-! ## Blocks -/

/-- An index outside of an array or a buffer. -/
inductive Fault : Type
  | outside
  deriving DecidableEq

def hyphen : UInt8 := 0x2D

def newline : UInt8 := 0x0A

/-- The loop over the mask, with the index, the sum and the blocks so far. -/
def sumMask (service_count : Nat) : List UInt8 → Nat → Int → List Int → Int × List Int
  | [], _, value, blocks => (value, blocks)
  | c :: rest, i, value, blocks =>
    if c ≠ hyphen then
      let value := value + (c.toNat + (10 + (i + 1) * 2) : Nat)
      if (i + 1) % 2 = 0 ∧ blocks.length < service_count then
        sumMask service_count rest (i + 1) 0 (blocks ++ [toShort value])
      else sumMask service_count rest (i + 1) value blocks
    else sumMask service_count rest (i + 1) value blocks

/-- What was not put in a block goes to the last one. -/
def addRest (value : Int) (blocks : List Int) : List Int :=
  if value ≠ 0 then blocks.dropLast ++ [toShort (blocks.getLastD 0 + value)] else blocks

/-- More blocks, each the first and the last one together. -/
def extend : Nat → List Int → List Int
  | 0, blocks => blocks
  | missing + 1, blocks =>
    extend missing (blocks ++ [toShort (blocks.headD 0 + blocks.getLastD 0)])

/-- The array has 100 entries; an index of -1 is used where the mask has no block. -/
def makeBlocks (service_count : Nat) (mask : List UInt8) : Except Fault (List Int) :=
  let sums := sumMask service_count mask 0 0 []
  if sums.2.length > 100 then .error .outside
  else if sums.1 ≠ 0 ∧ sums.2 = [] then .error .outside
  else
    let blocks := addRest sums.1 sums.2
    if service_count > blocks.length then
      if blocks = [] ∨ service_count > 100 then .error .outside
      else .ok (extend (service_count - blocks.length) blocks)
    else if blocks.length < 100 then .ok blocks
    else .error .outside

/-- The blocks with the services added, from an index on. -/
def setInfo : Nat → List UInt8 → List Int → List Int
  | i, s :: services, v :: info =>
    toShort (v + s.toNat * (i + 2) + (i + 1) * 7) :: setInfo (i + 1) services info
  | _, _, _ => []

/-! ## Texts -/

def printInt (v : Int) : List UInt8 :=
  if v < 0 then hyphen :: Decimal.ofNat v.natAbs else Decimal.ofNat v.natAbs

/-- What is printed of a block: the first one has no hyphen before it. -/
def piece (first : Bool) (v : Int) : List UInt8 :=
  if first then printInt v else hyphen :: printInt v

/-- Each block is printed to a temporary text and appended to the buffer, both with a zero at
their end. -/
def appendBlocks (room capacity : Nat) : Bool → List Int → List UInt8 → Except Fault (List UInt8)
  | _, [], buffer => .ok buffer
  | first, v :: blocks, buffer =>
    if (piece first v).length < room ∧ (buffer ++ piece first v).length < capacity then
      appendBlocks room capacity false blocks (buffer ++ piece first v)
    else .error .outside

/-- The temporary text has as many bytes as there are blocks. -/
def createLic (capacity : Nat) (str_result_info str_result_final : List Int) :
    Except Fault (List UInt8) := do
  let room := str_result_info.length
  if room = 0 then throw .outside
  let buffer ← appendBlocks room capacity true str_result_info []
  if ¬buffer.length + 1 < capacity then throw .outside
  let buffer ← appendBlocks room capacity true str_result_final (buffer ++ [newline])
  return encryptSimpleLic buffer

/-- The file of the licence for a mask and the values of the services. -/
def LIBLIC_createLic (capacity : Nat) (vs : List UInt8) (mask : List UInt8) :
    Except Fault (List UInt8) := do
  if vs.length > 100 then throw .outside
  let info ← makeBlocks vs.length mask
  return createFile (← createLic capacity info (setInfo 0 vs info))

/-- `Dgroup-5231`, which needs no licence. -/
def unlimited : List UInt8 := [0x44, 0x67, 0x72, 0x6F, 0x75, 0x70, 0x2D, 0x35, 0x32, 0x33, 0x31]

/-- The answer, and the file after it. -/
def LIBLIC_verifieLic (capacity service_count : Nat) (mask : List UInt8)
    (file : Option (List UInt8)) : Except Fault (Nat × Option (List UInt8)) := do
  let info ← makeBlocks service_count mask
  match file with
  | none => return (2, none)
  | some file =>
    let aux := decryptFileLic file
    let str := aux.takeWhile (· ≠ newline)
    if ¬str.length < 100 then throw .outside
    if info.length = 0 then throw .outside
    let buffer ← appendBlocks info.length capacity true info []
    if str = buffer then
      if aux.length < capacity then return (0, some file) else throw .outside
    else if str = unlimited then
      if (buffer ++ newline :: str).length < capacity then
        return (0, some (createFile (encryptSimpleLic (buffer ++ newline :: str))))
      else throw .outside
    else return (1, some file)

/-! ## Reading a licence -/

/-- `atoi` of a text without blanks or sign. -/
def atoi (str : List UInt8) : Int := Decimal.value str

def put (blocks : List Int) (v : Int) : Except Fault (List Int) :=
  if blocks.length < 100 then .ok (blocks ++ [toShort v]) else .error .outside

/-- The loop over a line, with the text of the block that is being read. -/
def readBlocks : List UInt8 → List UInt8 → List Int → Except Fault (List Int)
  | [], str, blocks => put blocks (atoi str)
  | c :: rest, str, blocks =>
    if c ≠ hyphen then
      if str.length + 1 < 100 then readBlocks rest (str ++ [c]) blocks else .error .outside
    else do readBlocks rest [] (← put blocks (atoi str))

/-- The blocks of both lines. -/
def readLic (file : List UInt8) : Except Fault (List Int × List Int) := do
  let aux := decryptFileLic file
  let info ← readBlocks (aux.takeWhile (· ≠ newline)) [] []
  let final ← readBlocks ((aux.dropWhile (· ≠ newline)).drop 1) [] []
  return (info, final)

/-- What `getServiceInfo` finds for a service; beyond the blocks of the first line the array
holds what was there before. -/
def serviceInfo (before : Nat → Int) (info final : List Int) (i : Nat) : UInt8 :=
  UInt8.ofInt ((final.getD i 0 - (i + 1) * 7 - info.getD i (before i)).tdiv (i + 2))

/-- The value of a service; the arrays may hold other values from before. -/
def LIBLIC_getServiceValue (before : Nat → Int) (servicesBefore : Nat → UInt8)
    (file : Option (List UInt8)) (service_type : Nat) : Except Fault UInt8 :=
  match file with
  | none => .ok 0
  | some file => do
    let (info, final) ← readLic file
    if service_type < final.length then return serviceInfo before info final service_type
    else if service_type < 100 then return servicesBefore service_type
    else throw .outside

/-! ## The blocks of a mask -/

/-- How many blocks the bytes of a mask have room for: one for each byte at an even place that
is not a hyphen. -/
def places : List UInt8 → Nat → Nat
  | [], _ => 0
  | c :: rest, i => (if c ≠ hyphen ∧ (i + 1) % 2 = 0 then 1 else 0) + places rest (i + 1)

/-- The block sequence of a mask. -/
def blocks (service_count : Nat) (mask : List UInt8) : List Int :=
  let sums := sumMask service_count mask 0 0 []
  let own := addRest sums.1 sums.2
  extend (service_count - own.length) own

/-- A mask has blocks that the array has room for; a last entry is written behind the blocks
that the mask itself fills. -/
def Placed (service_count : Nat) (mask : List UInt8) : Prop :=
  0 < places mask 0 ∧ (service_count < 100 ∨ service_count = 100 ∧ places mask 0 < 100)

theorem length_sumMask {n : Nat} {mask : List UInt8} {i : Nat} {value : Int} {own : List Int}
    (fits : own.length ≤ n) :
    (sumMask n mask i value own).2.length = min n (own.length + places mask i) := by
  induction mask generalizing i value own with
  | nil => simpa [sumMask, places] using fits
  | cons c rest ih =>
    rw [sumMask, places]
    dsimp only
    by_cases letter : c ≠ hyphen
    · rw [if_pos letter]
      by_cases even : (i + 1) % 2 = 0
      · have place : (if c ≠ hyphen ∧ (i + 1) % 2 = 0 then 1 else 0) = 1 := if_pos ⟨letter, even⟩
        rw [place]
        split_ifs with room
        · rw [ih (by simpa using room.2), length_append, length_singleton]
          omega
        · rw [ih fits]
          omega
      · rw [if_neg fun both => even both.1, if_neg fun both => even both.2, ih fits]
        omega
    · rw [if_neg letter, if_neg fun both => letter both.1, ih fits]
      omega

variable {value : Int} {own : List Int}

theorem sumMask_short {n : Nat} {mask : List UInt8} {i : Nat} (short : ∀ v ∈ own, IsShort v) :
    ∀ v ∈ (sumMask n mask i value own).2, IsShort v := by
  induction mask generalizing i value own with
  | nil => exact short
  | cons c rest ih =>
    rw [sumMask]
    dsimp only
    split_ifs
    · refine ih fun v hv => ?_
      rcases mem_append.1 hv with old | new
      · exact short v old
      · exact mem_singleton.1 new ▸ isShort_toShort _
    · exact ih short
    · exact ih short

theorem length_addRest (some : own ≠ []) : (addRest value own).length = own.length := by
  unfold addRest
  split_ifs
  · have positive := length_pos_iff.2 some
    rw [length_append, length_dropLast, length_singleton]
    omega
  · rfl

theorem addRest_short (short : ∀ v ∈ own, IsShort v) : ∀ v ∈ addRest value own, IsShort v := by
  unfold addRest
  split_ifs
  · intro v hv
    rcases mem_append.1 hv with old | new
    · exact short v (mem_of_mem_dropLast old)
    · exact mem_singleton.1 new ▸ isShort_toShort _
  · exact short

theorem length_extend (missing : Nat) (own : List Int) :
    (extend missing own).length = own.length + missing := by
  induction missing generalizing own with
  | zero => rfl
  | succ missing ih =>
    rw [extend, ih, length_append, length_singleton]
    omega

theorem extend_short {missing : Nat} (short : ∀ v ∈ own, IsShort v) :
    ∀ v ∈ extend missing own, IsShort v := by
  induction missing generalizing own with
  | zero => exact short
  | succ missing ih =>
    refine ih fun v hv => ?_
    rcases mem_append.1 hv with old | new
    · exact short v old
    · exact mem_singleton.1 new ▸ isShort_toShort _

theorem blocks_short (n : Nat) (mask : List UInt8) : ∀ v ∈ blocks n mask, IsShort v :=
  extend_short (addRest_short (sumMask_short (by simp)))

section places

variable {n : Nat} {mask : List UInt8} (positive : 0 < n) (placed : 0 < places mask 0)

include positive placed

theorem sums_ne_nil : (sumMask n mask 0 0 []).2 ≠ [] := by
  refine length_pos_iff.1 ?_
  rw [length_sumMask (Nat.zero_le _), length_nil]
  omega

theorem length_own : (addRest (sumMask n mask 0 0 []).1 (sumMask n mask 0 0 []).2).length =
    min n (places mask 0) := by
  rw [length_addRest (sums_ne_nil positive placed), length_sumMask (Nat.zero_le _),
    length_nil, Nat.zero_add]

theorem length_blocks : (blocks n mask).length = n := by
  unfold blocks
  dsimp only
  rw [length_extend, length_own positive placed]
  omega

end places

theorem makeBlocks_iff {n : Nat} {mask : List UInt8} {info : List Int} (positive : 0 < n) :
    makeBlocks n mask = .ok info ↔ Placed n mask ∧ info = blocks n mask := by
  have sums := @length_sumMask n mask 0 0 [] (Nat.zero_le _)
  rw [length_nil, Nat.zero_add] at sums
  by_cases placed : 0 < places mask 0
  · have own := length_own positive placed
    have nonempty := sums_ne_nil positive placed
    have filled : addRest (sumMask n mask 0 0 []).1 (sumMask n mask 0 0 []).2 ≠ [] :=
      length_pos_iff.1 (by omega)
    unfold makeBlocks Placed blocks
    dsimp only
    split_ifs with many none missing wrong last
    · refine ⟨(fun made => by cases made), fun both => ?_⟩
      omega
    · exact absurd none.2 nonempty
    · refine ⟨(fun made => by cases made), fun both => ?_⟩
      rcases wrong with empty | many
      · exact absurd empty filled
      · omega
    · have few : n < 100 ∨ n = 100 ∧ places mask 0 < 100 := by omega
      exact ⟨fun same => ⟨⟨placed, few⟩, (Except.ok.inj same).symm⟩,
        fun both => congrArg _ both.2.symm⟩
    · rw [Nat.sub_eq_zero_of_le (Nat.le_of_not_lt missing), extend]
      exact ⟨fun same => ⟨⟨placed, by omega⟩, (Except.ok.inj same).symm⟩,
        fun both => congrArg _ both.2.symm⟩
    · refine ⟨(fun made => by cases made), fun both => ?_⟩
      omega
  · have empty : (sumMask n mask 0 0 []).2 = [] := length_eq_zero_iff.1 (by omega)
    unfold makeBlocks
    dsimp only
    rw [empty]
    refine ⟨fun made => ?_, fun both => absurd both.1.1 placed⟩
    rw [if_neg (by simp)] at made
    have nothing : addRest (sumMask n mask 0 0 []).1 [] = [] ∨ (sumMask n mask 0 0 []).1 ≠ 0 := by
      by_cases zero : (sumMask n mask 0 0 []).1 = 0
      · exact .inl (by simp [addRest, zero])
      · exact .inr zero
    split_ifs at made with rest missing wrong last
    · exact absurd (nothing.resolve_right fun other => rest ⟨other, rfl⟩) fun h => wrong (.inl h)
    · rw [nothing.resolve_right fun other => rest ⟨other, rfl⟩] at missing
      exact absurd positive missing

/-! ## A line of blocks -/

/-- The text of a line, from its first block or from another one. -/
def text : Bool → List Int → List UInt8
  | _, [] => []
  | first, v :: line => piece first v ++ text false line

/-- Every piece fits in the temporary text with its zero. -/
def Fit (room : Nat) : Bool → List Int → Prop
  | _, [] => True
  | first, v :: line => (piece first v).length < room ∧ Fit room false line

instance decidableFit (room : Nat) :
    (first : Bool) → (line : List Int) → Decidable (Fit room first line)
  | _, [] => .isTrue trivial
  | first, v :: line =>
    have := decidableFit room false line
    inferInstanceAs (Decidable ((piece first v).length < room ∧ Fit room false line))

variable {line : List Int} {v : Int} {c : UInt8}

theorem appendBlocks_ok {room capacity : Nat} {first : Bool} {buffer made : List UInt8}
    (done : appendBlocks room capacity first line buffer = .ok made) :
    Fit room first line ∧ made = buffer ++ text first line ∧
      (line ≠ [] → made.length < capacity) := by
  induction line generalizing first buffer with
  | nil => exact ⟨trivial, by simpa [text] using (Except.ok.inj done).symm, fun h => absurd rfl h⟩
  | cons v line ih =>
    rw [appendBlocks] at done
    split_ifs at done with fits
    obtain ⟨fit, same, below⟩ := ih done
    refine ⟨⟨fits.1, fit⟩, by rw [same, text, append_assoc], fun _ => ?_⟩
    cases line with
    | nil =>
      rw [same, text, append_nil]
      exact fits.2
    | cons w line => exact below (cons_ne_nil _ _)

theorem appendBlocks_of_fit {room capacity : Nat} {first : Bool} {line : List Int}
    {buffer : List UInt8} (fit : Fit room first line)
    (below : (buffer ++ text first line).length < capacity) :
    appendBlocks room capacity first line buffer = .ok (buffer ++ text first line) := by
  induction line generalizing first buffer with
  | nil => rw [text, append_nil, appendBlocks]
  | cons v line ih =>
    rw [text, ← append_assoc] at below ⊢
    have here : (buffer ++ piece first v).length < capacity := by
      rw [length_append] at below
      omega
    rw [appendBlocks, if_pos ⟨fit.1, here⟩, ih fit.2 below]

/-- A byte of a line. -/
def IsPrinted (c : UInt8) : Prop := c = hyphen ∨ Decimal.isDigit c = true

theorem isPrinted_printInt (hc : c ∈ printInt v) : IsPrinted c := by
  unfold printInt at hc
  split_ifs at hc
  · rcases mem_cons.1 hc with sign | digit
    · exact .inl sign
    · exact .inr (Decimal.isDigit_of_mem digit)
  · exact .inr (Decimal.isDigit_of_mem hc)

theorem isPrinted_text {first : Bool} {line : List Int} {c : UInt8} (hc : c ∈ text first line) :
    IsPrinted c := by
  induction line generalizing first with
  | nil => cases hc
  | cons v line ih =>
    rcases mem_append.1 hc with here | later
    · unfold piece at here
      split_ifs at here
      · exact isPrinted_printInt here
      · rcases mem_cons.1 here with sign | digit
        · exact .inl sign
        · exact isPrinted_printInt digit
    · exact ih later

theorem IsPrinted.ne {d : UInt8} (printed : IsPrinted c) (other : ¬IsPrinted d) : c ≠ d := by
  rintro rfl
  exact other printed

/-! ## Reading a line -/

/-- What is read back of the blocks: a negative one is 0 and its absolute value. -/
def readBack (line : List Int) : List Int :=
  line.flatMap fun v => if v < 0 then [0, toShort v.natAbs] else [v]

theorem readBack_eq_iff : readBack line = line ↔ ∀ v ∈ line, 0 ≤ v := by
  induction line with
  | nil => simp [readBack]
  | cons v line ih =>
    rw [readBack, flatMap_cons, ← readBack, forall_mem_cons, ← ih]
    by_cases negative : v < 0
    · rw [if_pos negative]
      refine ⟨fun same => ?_, fun both => absurd both.1 (by omega)⟩
      have head : 0 = v := (List.cons.inj same).1
      omega
    · rw [if_neg negative, singleton_append, List.cons.injEq]
      exact ⟨fun both => ⟨by omega, both.2⟩, fun both => ⟨rfl, both.2⟩⟩

theorem readBlocks_digits {digits rest str : List UInt8} {own : List Int}
    (plain : ∀ c ∈ digits, c ≠ hyphen) (fits : str.length + digits.length < 100) :
    readBlocks (digits ++ rest) str own = readBlocks rest (str ++ digits) own := by
  induction digits generalizing str with
  | nil => rw [nil_append, append_nil]
  | cons c digits ih =>
    rw [length_cons] at fits
    rw [cons_append, readBlocks, if_pos (plain c mem_cons_self), if_pos (by omega),
      ih (fun d hd => plain d (mem_cons_of_mem _ hd)) (by simp; omega), append_assoc,
      singleton_append]

theorem readBlocks_number {rest : List UInt8} {own : List Int} (short : IsShort v) :
    readBlocks (Decimal.ofNat v.natAbs ++ rest) [] own =
      readBlocks rest (Decimal.ofNat v.natAbs) own := by
  obtain ⟨low, high⟩ := short
  have length : (Decimal.ofNat v.natAbs).length ≤ 5 :=
    Decimal.length_ofNat_le (by decide) (by omega)
  refine (readBlocks_digits (fun c hc => ?_) (by simp; omega)).trans (by rw [nil_append])
  rintro rfl
  exact absurd (Decimal.isDigit_of_mem hc) (by decide)

theorem toShort_atoi (n : Nat) : toShort (atoi (Decimal.ofNat n)) = toShort n :=
  congrArg (fun m : Nat => toShort m) (Decimal.value_ofNat n)

theorem readBlocks_text {line : List Int} {str : List UInt8} {own : List Int}
    (short : ∀ v ∈ line, IsShort v) : readBlocks (text false line) str own =
      if own.length + 1 + (readBack line).length ≤ 100 then
        .ok (own ++ [toShort (atoi str)] ++ readBack line)
      else .error .outside := by
  induction line generalizing str own with
  | nil =>
    rw [text, readBlocks, put, readBack, flatMap_nil, append_nil, length_nil]
    split_ifs <;> first | rfl | omega
  | cons v line ih =>
    have here : IsShort v := short v mem_cons_self
    have later {str : List UInt8} {own : List Int} := @ih str own fun w hw =>
      short w (mem_cons_of_mem _ hw)
    have value := toShort_atoi v.natAbs
    have pieces : text false (v :: line) = hyphen :: (printInt v ++ text false line) := rfl
    rw [pieces, readBlocks, if_neg (by simp), readBack, flatMap_cons, ← readBack]
    unfold put
    by_cases room : own.length < 100
    · rw [if_pos room]
      dsimp only [bind, Except.bind]
      unfold printInt
      by_cases negative : v < 0
      · rw [if_pos negative, if_pos negative, cons_append, readBlocks, if_neg (by simp)]
        unfold put
        split_ifs with room' fits fits
        · dsimp only [bind, Except.bind]
          rw [readBlocks_number here, later, value, if_pos (by simp at fits ⊢; omega)]
          simp [atoi, Decimal.value, toShort]
        · dsimp only [bind, Except.bind]
          rw [readBlocks_number here, later, if_neg (by simp at fits ⊢; omega)]
        · simp at room' fits
          omega
        · rfl
      · rw [if_neg negative, if_neg negative, readBlocks_number here, later, value]
        rw [here.toShort_natAbs (by omega)]
        simp only [length_append, length_cons, length_nil, append_assoc, singleton_append]
        split_ifs <;> first | rfl | omega
    · rw [if_neg room, if_neg (by omega)]
      rfl

theorem readBlocks_line (short : ∀ v ∈ line, IsShort v) (some : line ≠ []) :
    readBlocks (text true line) [] [] =
      if (readBack line).length ≤ 100 then .ok (readBack line) else .error .outside := by
  obtain ⟨v, line, rfl⟩ := exists_cons_of_ne_nil some
  have here : IsShort v := short v mem_cons_self
  have later {str : List UInt8} {own : List Int} := @readBlocks_text line str own fun w hw =>
    short w (mem_cons_of_mem _ hw)
  have value := toShort_atoi v.natAbs
  have pieces : text true (v :: line) = printInt v ++ text false line := rfl
  rw [pieces, readBack, flatMap_cons, ← readBack]
  unfold printInt
  by_cases negative : v < 0
  · rw [if_pos negative, if_pos negative, cons_append, readBlocks, if_neg (by simp)]
    have zero : put [] (atoi []) = .ok [0] := rfl
    rw [zero]
    dsimp only [bind, Except.bind]
    rw [readBlocks_number here, later, value]
    simp only [length_cons, length_nil, cons_append, nil_append]
    split_ifs <;> first | rfl | omega
  · rw [if_neg negative, if_neg negative, readBlocks_number here, later, value,
      here.toShort_natAbs (by omega)]
    simp only [length_cons, length_nil, cons_append, nil_append]
    split_ifs <;> first | rfl | omega

theorem length_le_readBack (line : List Int) : line.length ≤ (readBack line).length := by
  induction line with
  | nil => exact Nat.le_refl 0
  | cons v line ih =>
    rw [readBack, flatMap_cons, ← readBack, length_append, length_cons]
    split_ifs
    · rw [length_cons, length_singleton]
      omega
    · rw [length_singleton]
      omega

theorem readBack_eq_of_length (same : (readBack line).length = line.length) :
    readBack line = line := by
  induction line with
  | nil => rfl
  | cons v line ih =>
    have rest := length_le_readBack line
    rw [readBack, flatMap_cons, ← readBack, length_append, length_cons] at same
    rw [readBack, flatMap_cons, ← readBack]
    split_ifs at same ⊢
    · rw [length_cons, length_singleton] at same
      omega
    · rw [length_singleton] at same
      rw [ih (by omega), singleton_append]

theorem readBlocks_eq_iff (short : ∀ v ∈ line, IsShort v) (some : line ≠ [])
    (few : line.length ≤ 100) :
    readBlocks (text true line) [] [] = .ok line ↔ ∀ v ∈ line, 0 ≤ v := by
  rw [readBlocks_line short some, ← readBack_eq_iff]
  constructor
  · intro read
    split_ifs at read
    exact Except.ok.inj read
  · intro same
    rw [same, if_pos few]

theorem text_inj {line' : List Int} (short : ∀ v ∈ line, IsShort v)
    (short' : ∀ v ∈ line', IsShort v) (some : line ≠ []) (few : line.length ≤ 100)
    (length : line'.length = line.length) (positive : ∀ v ∈ line, 0 ≤ v)
    (same : text true line' = text true line) : line' = line := by
  have some' : line' ≠ [] := ne_nil_of_length_pos (length ▸ length_pos_iff.2 some)
  have read := (readBlocks_eq_iff short some few).2 positive
  rw [← same, readBlocks_line short' some'] at read
  split_ifs at read
  have back := Except.ok.inj read
  rw [← back]
  exact (readBack_eq_of_length (by rw [back, length])).symm

/-! ## The file -/

theorem decrypt_encrypt (c : UInt8) :
    decryptMatrix.getD (encryptMatrix.getD c.toNat 0).toNat 0 = c := by
  have all : ∀ n < 256, decryptMatrix.getD (encryptMatrix.getD n 0).toNat 0 = UInt8.ofNat n := by
    decide +kernel
  rw [all c.toNat c.toNat_lt, UInt8.ofNat_toNat]

theorem encrypt_ne_zero (other : c ≠ 0x65) : encryptMatrix.getD c.toNat 0 ≠ 0 := by
  intro zero
  have back := decrypt_encrypt c
  rw [zero] at back
  exact other back.symm

/-- The text of a licence. -/
def licence (info final : List Int) : List UInt8 := text true info ++ newline :: text true final

theorem decryptFileLic_createFile {source : List UInt8}
    (plain : ∀ c ∈ source, c ≠ 0 ∧ c ≠ 0x65) :
    decryptFileLic (createFile (encryptSimpleLic source)) = source := by
  have whole : createFile (encryptSimpleLic source) = encryptSimpleLic source := by
    refine takeWhile_eq_self_iff.2 fun d hd => ?_
    obtain ⟨c, hc, rfl⟩ := mem_map.1 hd
    exact decide_eq_true (encrypt_ne_zero (plain c hc).2)
  have back : decryptSimpleLic (encryptSimpleLic source) = source := by
    rw [decryptSimpleLic, encryptSimpleLic, map_map]
    exact (map_congr_left fun c _ => decrypt_encrypt c).trans (map_id _)
  rw [whole, decryptFileLic, back]
  exact takeWhile_eq_self_iff.2 fun c hc => decide_eq_true (plain c hc).1

theorem decryptFileLic_licence (info final : List Int) :
    decryptFileLic (createFile (encryptSimpleLic (licence info final))) = licence info final := by
  refine decryptFileLic_createFile fun c hc => ?_
  rcases mem_append.1 hc with first | second
  · have printed := isPrinted_text first
    exact ⟨printed.ne (by unfold IsPrinted; decide), printed.ne (by unfold IsPrinted; decide)⟩
  · rcases mem_cons.1 second with rfl | second
    · decide
    · have printed := isPrinted_text second
      exact ⟨printed.ne (by unfold IsPrinted; decide), printed.ne (by unfold IsPrinted; decide)⟩

theorem not_newline_of_mem_text {first : Bool} (hc : c ∈ text first line) :
    decide (c ≠ newline) = true :=
  decide_eq_true ((isPrinted_text hc).ne (by unfold IsPrinted; decide))

theorem takeWhile_licence (info final : List Int) :
    (licence info final).takeWhile (· ≠ newline) = text true info := by
  rw [licence, takeWhile_append_of_pos fun c hc => not_newline_of_mem_text hc,
    takeWhile_cons_of_neg (by simp), append_nil]

theorem dropWhile_licence (info final : List Int) :
    (licence info final).dropWhile (· ≠ newline) = newline :: text true final := by
  rw [licence, dropWhile_append_of_pos fun c hc => not_newline_of_mem_text hc,
    dropWhile_cons_of_neg (by simp)]

/-! ## The values of the services -/

theorem length_setInfo {i : Nat} {vs : List UInt8} {info : List Int}
    (same : info.length = vs.length) : (setInfo i vs info).length = info.length := by
  induction vs generalizing i info with
  | nil =>
    obtain rfl := length_eq_zero_iff.1 same
    rfl
  | cons s vs ih =>
    cases info with
    | nil => cases same
    | cons v info => exact congrArg (· + 1) (ih (Nat.succ.inj same))

theorem setInfo_short (i : Nat) (vs : List UInt8) (info : List Int) :
    ∀ v ∈ setInfo i vs info, IsShort v := by
  induction vs generalizing i info with
  | nil => simp [setInfo]
  | cons s vs ih =>
    cases info with
    | nil => simp [setInfo]
    | cons v info =>
      rw [setInfo, forall_mem_cons]
      exact ⟨isShort_toShort _, ih (i + 1) info⟩

theorem getElem?_setInfo {i k : Nat} {vs : List UInt8} {info : List Int} {s : UInt8} {v : Int}
    (service : vs[k]? = some s) (block : info[k]? = some v) :
    (setInfo i vs info)[k]? =
      some (toShort (v + s.toNat * ((i + k : Nat) + 2) + ((i + k : Nat) + 1) * 7)) := by
  induction k generalizing i vs info with
  | zero =>
    cases vs with
    | nil => cases service
    | cons s' vs =>
      cases info with
      | nil => cases block
      | cons v' info =>
        obtain rfl := Option.some.inj service
        obtain rfl := Option.some.inj block
        rfl
  | succ k ih =>
    cases vs with
    | nil => cases service
    | cons s' vs =>
      cases info with
      | nil => cases block
      | cons v' info =>
        rw [setInfo, List.getElem?_cons_succ, @ih (i + 1) vs info service block]
        rw [show i + 1 + k = i + (k + 1) by omega]

theorem serviceInfo_eq (before : Nat → Int) {vs : List UInt8} {info : List Int} {k : Nat}
    {s : UInt8} (service : vs[k]? = some s) (block : info[k]? = some v) (few : k < 100)
    (short : IsShort v) (positive : 0 ≤ v) (positive' : ∀ w ∈ setInfo 0 vs info, 0 ≤ w) :
    serviceInfo before info (setInfo 0 vs info) k = s := by
  have final := @getElem?_setInfo 0 k vs info s v service block
  have sign := positive' _ (mem_of_getElem? final)
  rw [Nat.zero_add] at final sign
  have byte : s.toNat < 256 := s.toNat_lt
  have product : (s.toNat : Int) * ((k : Int) + 2) ≤ 255 * 101 :=
    Int.mul_le_mul (by omega) (by omega) (by omega) (by omega)
  have added : 0 ≤ (s.toNat : Int) * ((k : Int) + 2) := Int.mul_nonneg (by omega) (by omega)
  -- a sum above 32767 would be negative as a `short`, as it stays below 65536
  have exact : toShort (v + s.toNat * ((k : Int) + 2) + ((k : Int) + 1) * 7) =
      v + s.toNat * ((k : Int) + 2) + ((k : Int) + 1) * 7 := by
    have upper := short.2
    unfold toShort at sign ⊢
    rw [Int.bmod_def] at sign ⊢
    split_ifs at sign ⊢ <;> omega
  unfold serviceInfo
  rw [getD_eq_getElem?_getD, final, getD_eq_getElem?_getD, block, Option.getD_some,
    Option.getD_some, exact]
  have rest : v + (s.toNat : Int) * ((k : Int) + 2) + ((k : Int) + 1) * 7 -
      ((k : Int) + 1) * 7 - v = s.toNat * ((k : Int) + 2) := by omega
  have small : ((s.toNat : Int) % 2 ^ 8).toNat = s.toNat := by omega
  rw [rest, Int.mul_tdiv_cancel _ (by omega), UInt8.ofInt, small, UInt8.ofNat_toNat]

/-! ## The round trip -/

section buffers

variable {capacity : Nat} {info final : List Int} (some : info ≠ []) (some' : final ≠ [])

include some some'

theorem createLic_ok {made : List UInt8} (done : createLic capacity info final = .ok made) :
    Fit info.length true info ∧ Fit info.length true final ∧
      (licence info final).length < capacity ∧ made = encryptSimpleLic (licence info final) := by
  have room : info.length ≠ 0 := fun zero => some (length_eq_zero_iff.1 zero)
  unfold createLic at done
  dsimp only at done
  rw [if_neg room] at done
  cases first : appendBlocks info.length capacity true info [] with
  | error e =>
    rw [first] at done
    cases done
  | ok buffer =>
    obtain ⟨fit, same, -⟩ := appendBlocks_ok first
    rw [nil_append] at same
    subst same
    rw [first] at done
    dsimp only [bind, Except.bind] at done
    split_ifs at done with full
    dsimp only [pure, Except.pure] at done
    cases second : appendBlocks info.length capacity true final (text true info ++ [newline]) with
    | error e =>
      rw [second] at done
      cases done
    | ok buffer' =>
      obtain ⟨fit', same', below⟩ := appendBlocks_ok second
      rw [append_assoc, singleton_append] at same'
      rw [second] at done
      subst same'
      exact ⟨fit, fit', below some', (Except.ok.inj done).symm⟩

omit some' in
theorem createLic_of_fit (fit : Fit info.length true info) (fit' : Fit info.length true final)
    (below : (licence info final).length < capacity) :
    createLic capacity info final = .ok (encryptSimpleLic (licence info final)) := by
  have room : info.length ≠ 0 := fun zero => some (length_eq_zero_iff.1 zero)
  have both : (text true info ++ [newline]) ++ text true final = licence info final := by
    rw [append_assoc, singleton_append, licence]
  have length := congrArg List.length both
  rw [length_append, length_append, length_singleton] at length
  have first := @appendBlocks_of_fit _ capacity true info [] fit (by rw [nil_append]; omega)
  have second := appendBlocks_of_fit fit' (both.symm ▸ below)
  rw [both] at second
  rw [nil_append] at first
  unfold createLic
  dsimp only
  rw [if_neg room, first]
  dsimp only [bind, Except.bind]
  rw [if_neg (by omega)]
  dsimp only [pure, Except.pure]
  rw [second]

end buffers

/-- A licence is made for a mask, checked against another one, read back, and gives the value
of each service, all without an index outside. -/
def RoundTrip (capacity : Nat) (mask mask' : List UInt8) (vs : List UInt8) : Prop :=
  ∃ file info info', makeBlocks vs.length mask = .ok info ∧
    makeBlocks vs.length mask' = .ok info' ∧
    LIBLIC_createLic capacity vs mask = .ok file ∧
    LIBLIC_verifieLic capacity vs.length mask' (some file) =
      .ok (if info' = info then 0 else 1, some file) ∧
    readLic file = .ok (info, setInfo 0 vs info) ∧
    ∀ before servicesBefore k s, vs[k]? = some s →
      LIBLIC_getServiceValue before servicesBefore (some file) k = .ok s

/-- The masks have blocks, every block fits in the temporary text, none is negative, the first
line fits in its array, and what is put together fits in the buffer. -/
structure Sound (capacity : Nat) (mask mask' : List UInt8) (vs : List UInt8) : Prop where
  placed : Placed vs.length mask
  placed' : Placed vs.length mask'
  info : Fit vs.length true (blocks vs.length mask)
  info' : Fit vs.length true (blocks vs.length mask')
  final : Fit vs.length true (setInfo 0 vs (blocks vs.length mask))
  positive : ∀ v ∈ blocks vs.length mask, 0 ≤ v
  positive' : ∀ v ∈ setInfo 0 vs (blocks vs.length mask), 0 ≤ v
  line : (text true (blocks vs.length mask)).length < 100
  buffer : (licence (blocks vs.length mask) (setInfo 0 vs (blocks vs.length mask))).length <
    capacity
  buffer' : (text true (blocks vs.length mask')).length < capacity

section verify

variable {capacity n : Nat} {mask' file : List UInt8} {info final : List Int}
  (positive : 0 < n) (decrypted : decryptFileLic file = licence info final)

include positive decrypted

theorem verifieLic_ok {result : Nat × Option (List UInt8)}
    (done : LIBLIC_verifieLic capacity n mask' (some file) = .ok result) :
    Placed n mask' ∧ (text true info).length < 100 ∧ Fit n true (blocks n mask') ∧
      (text true (blocks n mask')).length < capacity := by
  unfold LIBLIC_verifieLic at done
  cases made : makeBlocks n mask' with
  | error e =>
    rw [made] at done
    cases done
  | ok info' =>
    obtain ⟨placed, rfl⟩ := (makeBlocks_iff positive).1 made
    have length := length_blocks positive placed.1
    rw [made] at done
    dsimp only [bind, Except.bind] at done
    rw [decrypted, takeWhile_licence, length] at done
    by_cases line : (text true info).length < 100
    · rw [if_neg (not_not_intro line)] at done
      dsimp only [pure, Except.pure] at done
      rw [if_neg (by omega)] at done
      cases appended : appendBlocks n capacity true (blocks n mask') [] with
      | error e =>
        rw [appended] at done
        cases done
      | ok buffer =>
        obtain ⟨fit, same, below⟩ := appendBlocks_ok appended
        have some : blocks n mask' ≠ [] := ne_nil_of_length_pos (by omega)
        rw [nil_append] at same
        subst same
        exact ⟨placed, line, fit, below some⟩
    · rw [if_pos line] at done
      cases done

theorem verifieLic_eq (placed : Placed n mask') (line : (text true info).length < 100)
    (fit : Fit n true (blocks n mask')) (buffer : (text true (blocks n mask')).length < capacity)
    (room : (licence info final).length < capacity) :
    LIBLIC_verifieLic capacity n mask' (some file) =
      .ok (if text true (blocks n mask') = text true info then 0 else 1, some file) := by
  have length := length_blocks positive placed.1
  have made := (@makeBlocks_iff n mask' _ positive).2 ⟨placed, rfl⟩
  have appended := @appendBlocks_of_fit n capacity true _ [] fit (by rwa [nil_append])
  have licensed : text true info ≠ unlimited := by
    intro same
    have printed : IsPrinted 0x44 := @isPrinted_text true info _ (same ▸ by decide)
    exact absurd printed (by unfold IsPrinted; decide)
  unfold LIBLIC_verifieLic
  rw [made]
  dsimp only [bind, Except.bind, pure, Except.pure]
  rw [decrypted, takeWhile_licence, length, if_neg (by omega)]
  rw [if_neg (by omega)]
  rw [appended]
  dsimp only
  rw [nil_append, if_neg licensed]
  split_ifs with same other other
  · rfl
  · exact absurd same.symm other
  · exact absurd other.symm same
  · rfl

end verify

theorem readLic_iff {file : List UInt8} {info final : List Int}
    (decrypted : decryptFileLic file = licence info final) :
    readLic file = .ok (info, final) ↔ readBlocks (text true info) [] [] = .ok info ∧
      readBlocks (text true final) [] [] = .ok final := by
  unfold readLic
  dsimp only
  rw [decrypted, takeWhile_licence, dropWhile_licence, drop_one, tail_cons]
  cases readBlocks (text true info) [] [] with
  | error e => exact ⟨(fun read => by cases read), (fun both => by cases both.1)⟩
  | ok info' =>
    cases readBlocks (text true final) [] [] with
    | error e => exact ⟨(fun read => by cases read), (fun both => by cases both.2)⟩
    | ok final' =>
      dsimp only [bind, Except.bind, pure, Except.pure]
      rw [Except.ok.injEq, Except.ok.injEq, Except.ok.injEq, Prod.mk.injEq]

theorem getServiceValue_eq {file : List UInt8} {info final : List Int}
    (read : readLic file = .ok (info, final)) (before : Nat → Int) (servicesBefore : Nat → UInt8)
    {k : Nat} (inside : k < final.length) :
    LIBLIC_getServiceValue before servicesBefore (some file) k =
      .ok (serviceInfo before info final k) := by
  unfold LIBLIC_getServiceValue
  dsimp only
  rw [read]
  dsimp only [bind, Except.bind]
  rw [if_pos inside]
  rfl

theorem LIBLIC_createLic_eq {capacity : Nat} {vs mask : List UInt8} {info : List Int}
    (few : vs.length ≤ 100) (made : makeBlocks vs.length mask = .ok info) :
    LIBLIC_createLic capacity vs mask =
      createFile <$> createLic capacity info (setInfo 0 vs info) := by
  unfold LIBLIC_createLic
  rw [if_neg (by omega), made]
  dsimp only [bind, Except.bind, pure, Except.pure]
  cases createLic capacity info (setInfo 0 vs info) with
  | error e => rfl
  | ok buffer => rfl

theorem Placed.le {n : Nat} {mask : List UInt8} (placed : Placed n mask) : n ≤ 100 := by
  rcases placed.2 with below | ⟨most, -⟩
  · omega
  · omega

/-- A licence goes round exactly when no block is negative and everything fits. -/
theorem roundTrip_iff {capacity : Nat} {mask mask' vs : List UInt8} (some : vs ≠ []) :
    RoundTrip capacity mask mask' vs ↔ Sound capacity mask mask' vs := by
  have positive : 0 < vs.length := length_pos_iff.2 some
  have short := blocks_short vs.length mask
  have short' := setInfo_short 0 vs (blocks vs.length mask)
  constructor
  · intro round
    obtain ⟨file, info, info', made, made', created, verified, read, -⟩ := round
    obtain ⟨placed, rfl⟩ := (makeBlocks_iff positive).1 made
    have few := placed.le
    have length := length_blocks positive placed.1
    have length' : (setInfo 0 vs (blocks vs.length mask)).length = vs.length :=
      (length_setInfo length).trans length
    have nonempty : blocks vs.length mask ≠ [] := ne_nil_of_length_pos (by omega)
    have nonempty' := ne_nil_of_length_pos (length' ▸ positive)
    rw [LIBLIC_createLic_eq placed.le made] at created
    cases encrypted : createLic capacity (blocks vs.length mask)
        (setInfo 0 vs (blocks vs.length mask)) with
    | error e =>
      rw [encrypted] at created
      cases created
    | ok buffer =>
      obtain ⟨fit, fit', room, rfl⟩ := createLic_ok nonempty nonempty' encrypted
      rw [encrypted] at created
      obtain rfl := Except.ok.inj created
      have decrypted := decryptFileLic_licence (blocks vs.length mask)
        (setInfo 0 vs (blocks vs.length mask))
      obtain ⟨placed', line, fit'', room'⟩ := verifieLic_ok positive decrypted verified
      obtain ⟨first, second⟩ := (readLic_iff decrypted).1 read
      rw [length] at fit fit'
      exact ⟨placed, placed', fit, fit'', fit',
        (readBlocks_eq_iff short nonempty (by omega)).1 first,
        (readBlocks_eq_iff short' nonempty' (by omega)).1 second, line, room, room'⟩
  · intro sound
    have placed := sound.placed
    have few := placed.le
    have length := length_blocks positive placed.1
    have length' : (setInfo 0 vs (blocks vs.length mask)).length = vs.length :=
      (length_setInfo length).trans length
    have nonempty : blocks vs.length mask ≠ [] := ne_nil_of_length_pos (by omega)
    have nonempty' := ne_nil_of_length_pos (length' ▸ positive)
    have made := (@makeBlocks_iff _ mask _ positive).2 ⟨placed, rfl⟩
    have made' := (@makeBlocks_iff _ mask' _ positive).2 ⟨sound.placed', rfl⟩
    have decrypted := decryptFileLic_licence (blocks vs.length mask)
      (setInfo 0 vs (blocks vs.length mask))
    have encrypted := createLic_of_fit nonempty (length.symm ▸ sound.info)
      (length.symm ▸ sound.final) sound.buffer
    have read := (readLic_iff decrypted).2
      ⟨(readBlocks_eq_iff short nonempty (by omega)).2 sound.positive,
        (readBlocks_eq_iff short' nonempty' (by omega)).2 sound.positive'⟩
    refine ⟨_, _, _, made, made', ?_, ?_, read, fun before servicesBefore k s service => ?_⟩
    · rw [LIBLIC_createLic_eq placed.le made, encrypted]
      rfl
    · rw [verifieLic_eq positive decrypted sound.placed' sound.line sound.info' sound.buffer'
        sound.buffer]
      have same : text true (blocks vs.length mask') = text true (blocks vs.length mask) ↔
          blocks vs.length mask' = blocks vs.length mask :=
        ⟨text_inj short (blocks_short _ _) nonempty (by omega)
          ((length_blocks positive sound.placed'.1).trans length.symm) sound.positive,
          congrArg _⟩
      rw [if_congr same rfl rfl]
    · obtain ⟨inside, rfl⟩ := List.getElem?_eq_some_iff.1 service
      have block : (blocks vs.length mask)[k]? = _ := List.getElem?_eq_getElem (by omega)
      have member := mem_of_getElem? block
      rw [getServiceValue_eq read before servicesBefore (by omega),
        serviceInfo_eq before service block (by omega) (short _ member) (sound.positive _ member)
          sound.positive']

/-! ## Four services -/

/-- `151-160-169` -/
def sampleMask : List UInt8 := [49, 53, 49, 45, 49, 54, 48, 45, 49, 54, 57]

/-- With six services there is room for five bytes. -/
theorem roundTrip_six : RoundTrip 100 sampleMask sampleMask [4, 2, 1, 1, 0, 0] :=
  (roundTrip_iff (by decide)).2
    { placed := by unfold Placed; decide
      placed' := by unfold Placed; decide
      info := by decide
      info' := by decide
      final := by decide
      positive := by decide
      positive' := by decide
      line := by decide
      buffer := by decide
      buffer' := by decide }

/-- With four, as the licences of the boxes have, the second block is written outside. -/
theorem roundTrip_fails : ¬∀ (capacity : Nat) (mask mask' vs : List UInt8), vs ≠ [] →
    RoundTrip capacity mask mask' vs := by
  intro all
  obtain ⟨file, info, info', -, -, created, -⟩ :=
    all 100 sampleMask sampleMask [4, 2, 1, 1] (by decide)
  have outside : (LIBLIC_createLic 100 [4, 2, 1, 1] sampleMask).toOption = none := by decide
  rw [created] at outside
  cases outside

end CimArm.LicUtil
