import Mathlib.Tactic.Ring
import Mathlib.Algebra.Order.Group.Unbundled.Int

/-!
# The checksum of transferred files

`sendFile` copies a file, sums its bytes in a `short` and appends the sum in two bytes, the low
one first.  `validateFile` sums the received file with its trailer, takes the two last bytes off
again and compares.  Whether `char` is signed is left open; both sides read the bytes alike.
-/

namespace CimArm.FileManager

open List

/-! ## Checksums -/

/-- Whether `char` is signed is up to the compiler. -/
inductive CharType : Type
  | signed
  | unsigned
  deriving DecidableEq

/-- `(char) b` -/
def CharType.value (type : CharType) (b : UInt8) : Int :=
  match type with
  | .unsigned => b.toNat
  | .signed => if b.toNat < 128 then b.toNat else b.toNat - 256

/-- The assignment to a `short`. -/
def toShort (n : Int) : Int := n.bmod 65536

def getFileChecksum (type : CharType) (file : List UInt8) : Int :=
  file.foldl (fun chk b => toShort (chk + type.value b)) 0

/-- `copyFile` reads as many bytes as the source has. -/
def copyFile (source : List UInt8) : List UInt8 := source.take source.length

/-- The temporary file of `sendFile`. -/
def sendFileTrailer (type : CharType) (file : List UInt8) : List UInt8 :=
  let st := copyFile file
  let chk := getFileChecksum type st
  st ++ [UInt8.ofNat (chk % 256).toNat, UInt8.ofNat (chk / 256 % 256).toNat]

/-- `none`: a file of less than two bytes has no trailer, and the comparison reads variables that
were not set. -/
def validateFile (type : CharType) (file : List UInt8) : Option Bool :=
  let chk := getFileChecksum type file
  match file.drop (file.length - 2) with
  | [tmp, tmp2] =>
    let chk := toShort (chk - type.value tmp)
    let chk := toShort (chk - type.value tmp2)
    let stmp := toShort (tmp2.toNat * 256)
    let chkAlm := toShort (tmp.toNat + stmp)
    some (chk = chkAlm)
  | _ => none

/-! ## Sums -/

/-- The sum of the bytes, without a bound. -/
def byteSum (type : CharType) (file : List UInt8) : Int := (file.map type.value).sum

variable (type : CharType) (file : List UInt8)

theorem getFileChecksum_eq : getFileChecksum type file = toShort (byteSum type file) := by
  have run : ∀ (file : List UInt8) (chk : Int),
      file.foldl (fun chk b => toShort (chk + type.value b)) (toShort chk) =
        toShort (chk + byteSum type file) := by
    intro file
    induction file with
    | nil => simp [byteSum]
    | cons b file ih =>
      intro chk
      have step : toShort (toShort chk + type.value b) = toShort (chk + type.value b) :=
        Int.bmod_add_bmod
      rw [foldl_cons, step, ih]
      simp [byteSum, add_assoc]
  have zero := run file 0
  rwa [Int.zero_add] at zero

theorem byteSum_append (other : List UInt8) :
    byteSum type (file ++ other) = byteSum type file + byteSum type other := by
  simp [byteSum]

theorem toShort_eq_iff {m n : Int} : toShort m = toShort n ↔ (65536 : Int) ∣ m - n := by
  rw [toShort, toShort, Int.bmod_eq_bmod_iff_bmod_sub_eq_zero]
  exact Int.dvd_iff_bmod_eq_zero.symm

theorem validateFile_append (tmp tmp2 : UInt8) : validateFile type (file ++ [tmp, tmp2]) =
      some (decide ((65536 : Int) ∣ byteSum type file - (tmp.toNat + tmp2.toNat * 256))) := by
  have trailer : (file ++ [tmp, tmp2]).drop ((file ++ [tmp, tmp2]).length - 2) = [tmp, tmp2] := by
    simp
  have sum : toShort (toShort (getFileChecksum type (file ++ [tmp, tmp2]) - type.value tmp) -
      type.value tmp2) = toShort (byteSum type file) := by
    rw [getFileChecksum_eq, byteSum_append]
    simp only [toShort, Int.bmod_sub_bmod]
    congr 1
    simp [byteSum]
    ring
  have stored : toShort (tmp.toNat + toShort (tmp2.toNat * 256)) =
      toShort (tmp.toNat + tmp2.toNat * 256) := Int.add_bmod_bmod
  rw [validateFile, trailer]
  simp only [sum, stored, toShort_eq_iff]

theorem value_sub_bounds (b c : UInt8) :
    -255 ≤ type.value b - type.value c ∧ type.value b - type.value c ≤ 255 := by
  have first := b.toNat_lt
  have second := c.toNat_lt
  cases type with
  | unsigned =>
    simp only [CharType.value]
    omega
  | signed =>
    simp only [CharType.value]
    split_ifs <;> omega

theorem value_injective {b c : UInt8} (same : type.value b = type.value c) : b = c := by
  have first := b.toNat_lt
  have second := c.toNat_lt
  apply UInt8.toNat_inj.1
  cases type with
  | unsigned =>
    simp only [CharType.value] at same
    omega
  | signed =>
    simp only [CharType.value] at same
    split_ifs at same <;> omega

theorem byteSum_set {file : List UInt8} {i : Nat} (inside : i < file.length) (b : UInt8) :
    byteSum type (file.set i b) - byteSum type file = type.value b - type.value file[i] := by
  induction file generalizing i with
  | nil => cases inside
  | cons c file ih =>
    cases i with
    | zero =>
      simp only [byteSum, set_cons_zero, map_cons, sum_cons, getElem_cons_zero]
      ring
    | succ i =>
      have rest := ih (Nat.lt_of_succ_lt_succ inside)
      simp only [byteSum, set_cons_succ, map_cons, sum_cons, getElem_cons_succ] at rest ⊢
      rw [← rest]
      ring

/-! ## The trailer -/

theorem trailer_eq (chk : Int) :
    (65536 : Int) ∣ chk -
      ((UInt8.ofNat (chk % 256).toNat).toNat + (UInt8.ofNat (chk / 256 % 256).toNat).toNat * 256) := by
  have low : (UInt8.ofNat (chk % 256).toNat).toNat = (chk % 256).toNat := by
    rw [UInt8.toNat_ofNat']
    omega
  have high : (UInt8.ofNat (chk / 256 % 256).toNat).toNat = (chk / 256 % 256).toNat := by
    rw [UInt8.toNat_ofNat']
    omega
  rw [low, high]
  omega

theorem not_dvd_of_small {n : Int} (nonzero : n ≠ 0) (low : -65536 < n) (high : n < 65536) :
    ¬ (65536 : Int) ∣ n := by
  omega

/-- **The trailer**: the file with its trailer is accepted, and with any one byte changed it is
not. -/
theorem validateFile_trailer (type : CharType) (file : List UInt8) :
    validateFile type (sendFileTrailer type file) = some true ∧
      ∀ (i : Nat) (inside : i < (sendFileTrailer type file).length) (b : UInt8),
        b ≠ (sendFileTrailer type file)[i] →
        validateFile type ((sendFileTrailer type file).set i b) = some false := by
  obtain ⟨tmp, tmp2, whole, stored⟩ : ∃ tmp tmp2,
      sendFileTrailer type file = file ++ [tmp, tmp2] ∧
        (65536 : Int) ∣ byteSum type file - (tmp.toNat + tmp2.toNat * 256) := by
    refine ⟨_, _, by rw [sendFileTrailer, copyFile, take_length], ?_⟩
    have sum := trailer_eq (getFileChecksum type file)
    have chk : (65536 : Int) ∣ byteSum type file - getFileChecksum type file := by
      rw [getFileChecksum_eq]
      exact Int.dvd_self_sub_bmod
    omega
  simp only [whole]
  refine ⟨by rw [validateFile_append, decide_eq_true stored], ?_⟩
  intro i inside b changed
  rcases Nat.lt_or_ge i file.length with content | trailer
  · have sum := byteSum_set type content b
    have bounds := value_sub_bounds type b file[i]
    have other : b ≠ file[i] := by rwa [getElem_append_left content] at changed
    have nonzero : type.value b - type.value file[i] ≠ 0 := fun zero =>
      other (value_injective type (Int.sub_eq_zero.1 zero))
    rw [set_append_left _ _ content, validateFile_append, decide_eq_false]
    intro divides
    exact not_dvd_of_small nonzero (by omega) (by omega) (by omega)
  · rw [length_append] at inside
    have place : i = file.length ∨ i = file.length + 1 := by
      simp only [length_cons, length_nil] at inside
      omega
    rcases place with rfl | rfl
    · have other : b.toNat ≠ tmp.toNat := by
        intro same
        exact changed (by simpa using UInt8.toNat_inj.1 same)
      have one := b.toNat_lt
      have two := tmp.toNat_lt
      have set : (file ++ [tmp, tmp2]).set file.length b = file ++ [b, tmp2] := by
        simp
      rw [set, validateFile_append, decide_eq_false]
      omega
    · have other : b.toNat ≠ tmp2.toNat := by
        intro same
        exact changed (by simpa using UInt8.toNat_inj.1 same)
      have one := b.toNat_lt
      have two := tmp2.toNat_lt
      have set : (file ++ [tmp, tmp2]).set (file.length + 1) b = file ++ [tmp, b] := by
        simp
      rw [set, validateFile_append, decide_eq_false]
      omega

theorem validateFile_trailer_bytes :
    validateFile .signed (sendFileTrailer .signed [200, 255]) = some true ∧
      validateFile .signed ((sendFileTrailer .signed [200, 255]).set 0 201) = some false :=
  ⟨(validateFile_trailer .signed [200, 255]).1,
    (validateFile_trailer .signed [200, 255]).2 0 (by decide) 201 (by decide)⟩

end CimArm.FileManager
