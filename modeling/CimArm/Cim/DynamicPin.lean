import CimArm.Cim.AESencript
import CimArm.Lib.Decimal

/-!
# Dynamic PINs

When a door is opened, a user gets a new PIN, a PIN for duress, and a closing code.  The closing
code is made of the time, the user and the old PIN with the address of the network card as the
key, and the PINs are made of the closing code alone, so that they can be made again from it.

The arrays of the cipher and of this module are static: each call finds what the calls before it
have left.  `doGeneratePin_generateNewPin` says that the PINs are the same again nevertheless.
-/

namespace CimArm.DynamicPin

open Buffer AESencript

/-- The static arrays. -/
structure Statics where
  globals : Globals
  plainText : Vector UInt8 100
  myClosingCode : Vector UInt8 17
  buffer : Vector UInt8 50

/-- `PasswordPassword`. -/
def secretWord : Vector UInt8 16 :=
  #v[80, 97, 115, 115, 119, 111, 114, 100, 80, 97, 115, 115, 119, 111, 114, 100]

/-- `0123456789ABCDEF`. -/
def charSet (digit : UInt8) : UInt8 :=
  if digit < 10 then digit + 48 else digit + 55

/-- The digits of bytes, with a line end and a terminator. -/
def getHexFrame2 (data : List UInt8) (buffer : Vector UInt8 50) : Vector UInt8 50 :=
  copy buffer 0 ((data.flatMap fun b => [charSet (b / 16), charSet (b % 16)]) ++ [10, 0])

/-- The block at the beginning of an array. -/
def firstBlock {n : Nat} (bytes : Vector UInt8 n) : Vector UInt8 16 :=
  Vector.ofFn fun i : Fin 16 => byte bytes i

/-- The digits of a PIN. -/
def pinDigits (newPinTemp : Vector UInt8 16) : List UInt8 :=
  (List.range 8).map fun i => byte newPinTemp i % 10 + 48

/-- The last digit is one more. -/
def duressDigits (newPinTemp : Vector UInt8 16) : List UInt8 :=
  (List.range 8).map fun i =>
    if i = 7 then UInt8.ofNat (((byte newPinTemp i).toNat + 1) % 10) + 48
    else byte newPinTemp i % 10 + 48

/-- There is none where the code does not fit twice. -/
def doGeneratePin (closingCode : List UInt8) (s : Statics) :
    Option ((List UInt8 × List UInt8) × Statics) :=
  if 2 * closingCode.length + 1 ≤ 17 then
    let myClosingCode := copy s.myClosingCode 0 (closingCode ++ closingCode ++ [0])
    let globals := Cipher (firstBlock myClosingCode) secretWord s.globals
    some ((pinDigits globals.out, duressDigits globals.out),
      { s with globals := globals, myClosingCode := myClosingCode })
  else none

/-- The address of the network card is what the array has after it was asked for. -/
def generateNewPin (fechaHoraApertura idUsuario : Nat) (oldPIN : List UInt8)
    (macAddress : Vector UInt8 32) (s : Statics) :
    Option ((List UInt8 × List UInt8 × List UInt8) × Statics) :=
  let text := Decimal.ofNat fechaHoraApertura ++ Decimal.ofNat idUsuario ++ oldPIN
  if text.length + 1 ≤ 100 then do
    let plainText := copy s.plainText 0 (text ++ [0])
    let codigoCierre := Cipher (firstBlock plainText) (firstBlock macAddress) s.globals
    let buffer := getHexFrame2 codigoCierre.out.toList s.buffer
    let codigoCierreFinal := copy buffer 8 [0]
    let newClosingCode := cString codigoCierreFinal.toList
    let (pins, s) ← doGeneratePin newClosingCode
      { s with globals := codigoCierre, plainText := plainText, buffer := codigoCierreFinal }
    some ((newClosingCode, pins), s)
  else none

/-! ## What the arrays held -/

theorem firstBlock_copy {n : Nat} (target other : Vector UInt8 n) {bytes : List UInt8}
    (room : 16 ≤ n) (long : 16 ≤ bytes.length) :
    firstBlock (copy target 0 bytes) = firstBlock (copy other 0 bytes) := by
  apply Vector.ext
  intro i inside
  simp only [firstBlock, Vector.getElem_ofFn]
  rw [byte_copy target 0 bytes (by omega), byte_copy other 0 bytes (by omega), if_pos (by omega),
    if_pos (by omega)]

/-- The PINs of a code of eight characters are made of it alone. -/
theorem doGeneratePin_eq {closingCode : List UInt8} (eight : closingCode.length = 8)
    (s t : Statics) :
    (doGeneratePin closingCode s).map Prod.fst = (doGeneratePin closingCode t).map Prod.fst := by
  have same := @firstBlock_copy 17 s.myClosingCode t.myClosingCode
    (closingCode ++ closingCode ++ [0]) (by omega)
    (by rw [List.length_append, List.length_append]; omega)
  rw [doGeneratePin, doGeneratePin, if_pos (by omega), if_pos (by omega)]
  dsimp only [Option.map_some]
  rw [same, Cipher_out _ secretWord s.globals t.globals]

/-! ## The digits -/

theorem charSet_ne_zero (b : UInt8) : charSet (b / 16) ≠ 0 ∧ charSet (b % 16) ≠ 0 := by
  revert b
  apply ByteField.forall_byte
  decide +kernel

theorem length_hex (data : List UInt8) :
    (data.flatMap fun b => [charSet (b / 16), charSet (b % 16)]).length = 2 * data.length := by
  induction data with
  | nil => rfl
  | cons b data ih =>
    rw [List.flatMap_cons, List.length_append, ih, List.length_cons]
    simp only [List.length_cons, List.length_nil]
    omega

theorem cString_hex (out : Vector UInt8 16) (buffer : Vector UInt8 50) :
    cString (copy (getHexFrame2 out.toList buffer) 8 [0]).toList =
      (out.toList.flatMap fun b => [charSet (b / 16), charSet (b % 16)]).take 8 := by
  generalize hex : (out.toList.flatMap fun b => [charSet (b / 16), charSet (b % 16)]) = digits
  have length : digits.length = 32 := by rw [← hex, length_hex, Vector.length_toList]
  have nonzero : 0 ∉ digits.take 8 := by
    intro zero
    have inside := List.mem_of_mem_take zero
    rw [← hex] at inside
    obtain ⟨b, -, here⟩ := List.mem_flatMap.1 inside
    have digit := charSet_ne_zero b
    rcases List.mem_cons.1 here with first | second
    · exact digit.1 first.symm
    · exact digit.2 (List.mem_singleton.1 second).symm
  have frame : (getHexFrame2 out.toList buffer).toList.take 8 = digits.take 8 := by
    have written := @take_copy 50 buffer 0 (digits ++ [10, 0])
      (by rw [List.length_append, length]; simp)
    rw [List.take_zero, List.nil_append] at written
    have front := congrArg (List.take 8) written
    rw [List.take_take, List.length_append, length,
      List.take_append_of_le_length (by omega)] at front
    rw [getHexFrame2, hex]
    exact front
  have cut := @take_copy 50 (getHexFrame2 out.toList buffer) 8 [0] (by simp)
  rw [frame] at cut
  rw [← List.take_append_drop (8 + [(0 : UInt8)].length)
    (copy (getHexFrame2 out.toList buffer) 8 [0]).toList, cut, List.append_assoc]
  exact (cString_append_eq nonzero _).2 (Or.inr rfl)

/-- The digits of both PINs, which differ in the last one. -/
theorem digits_eq (newPinTemp : Vector UInt8 16) :
    ∃ (front : List Nat) (last : Nat), front.length = 7 ∧ (∀ d ∈ front, d < 10) ∧ last < 10 ∧
      pinDigits newPinTemp = front.map Decimal.digit ++ [Decimal.digit last] ∧
      duressDigits newPinTemp =
        front.map Decimal.digit ++ [Decimal.digit ((last + 1) % 10)] := by
  have digit : ∀ b : UInt8, b % 10 + 48 = Decimal.digit (b.toNat % 10) ∧
      UInt8.ofNat ((b.toNat + 1) % 10) + 48 = Decimal.digit ((b.toNat % 10 + 1) % 10) := by
    apply ByteField.forall_byte
    decide +kernel
  refine ⟨(List.range 7).map fun i => (byte newPinTemp i).toNat % 10,
    (byte newPinTemp 7).toNat % 10, by simp, ?_, Nat.mod_lt _ (by omega), ?_, ?_⟩
  · intro d hd
    obtain ⟨i, -, rfl⟩ := List.mem_map.1 hd
    exact Nat.mod_lt _ (by omega)
  · rw [pinDigits, List.range_succ, List.map_append, List.map_map]
    congr 1
    · apply List.map_congr_left
      intro i _
      exact (digit _).1
    · rw [List.map_singleton, (digit _).1]
  · rw [duressDigits, List.range_succ, List.map_append, List.map_map]
    congr 1
    · apply List.map_congr_left
      intro i hi
      have before : i ≠ 7 := Nat.ne_of_lt (List.mem_range.1 hi)
      rw [if_neg before]
      exact (digit _).1
    · rw [List.map_singleton, if_pos rfl, (digit _).2]

/-! ## The PINs again -/

theorem doGeneratePin_digits {closingCode : List UInt8} {s s' : Statics}
    {pins : List UInt8 × List UInt8} (generated : doGeneratePin closingCode s = some (pins, s')) :
    pins = (pinDigits s'.globals.out, duressDigits s'.globals.out) := by
  rw [doGeneratePin] at generated
  split at generated
  case isTrue =>
    cases generated
    rfl
  case isFalse => cases generated

theorem length_hex_take (out : Vector UInt8 16) :
    ((out.toList.flatMap fun b => [charSet (b / 16), charSet (b % 16)]).take 8).length = 8 := by
  rw [List.length_take_of_le]
  rw [length_hex, Vector.length_toList]
  omega

/-- There is a new PIN where the text it is made of has room. -/
theorem exists_generateNewPin {fechaHoraApertura idUsuario : Nat} {oldPIN : List UInt8}
    (room : (Decimal.ofNat fechaHoraApertura ++ Decimal.ofNat idUsuario ++ oldPIN).length + 1 ≤ 100)
    (macAddress : Vector UInt8 32) (s : Statics) :
    ∃ newClosingCode newPIN newDuress s', generateNewPin fechaHoraApertura idUsuario oldPIN
      macAddress s = some ((newClosingCode, newPIN, newDuress), s') := by
  rw [generateNewPin]
  dsimp only
  rw [if_pos room, cString_hex, doGeneratePin, if_pos (by rw [length_hex_take])]
  exact ⟨_, _, _, _, rfl⟩

/-- Whatever was done in between, the closing code gives the PINs again.  The PIN for duress is
another one, and only its last digit is. -/
theorem doGeneratePin_generateNewPin {fechaHoraApertura idUsuario : Nat} {oldPIN : List UInt8}
    {macAddress : Vector UInt8 32} {s s' : Statics} {newClosingCode newPIN newDuress : List UInt8}
    (generated : generateNewPin fechaHoraApertura idUsuario oldPIN macAddress s =
      some ((newClosingCode, newPIN, newDuress), s')) :
    newClosingCode.length = 8 ∧
    (∀ t, (doGeneratePin newClosingCode t).map Prod.fst = some (newPIN, newDuress)) ∧
    ∃ (front : List Nat) (last : Nat), front.length = 7 ∧ (∀ d ∈ front, d < 10) ∧ last < 10 ∧
      newPIN = front.map Decimal.digit ++ [Decimal.digit last] ∧
      newDuress = front.map Decimal.digit ++ [Decimal.digit ((last + 1) % 10)] := by
  rw [generateNewPin] at generated
  dsimp only at generated
  split at generated
  case isFalse => cases generated
  case isTrue =>
    rw [cString_hex] at generated
    obtain ⟨⟨pins, after⟩, pin, result⟩ := Option.bind_eq_some_iff.1 generated
    simp only [Option.some.injEq, Prod.mk.injEq] at result
    obtain ⟨⟨code, same⟩, -⟩ := result
    have eight : newClosingCode.length = 8 := by rw [← code, length_hex_take]
    rw [code] at pin
    have digits := doGeneratePin_digits pin
    rw [same, Prod.mk.injEq] at digits
    rw [digits.1, digits.2] at same ⊢
    refine ⟨eight, ?_, digits_eq _⟩
    intro t
    rw [doGeneratePin_eq eight t _, pin, same]
    rfl

/-- The arrays before the first call. -/
def start : Statics where
  globals := ⟨0, 0, Vector.replicate 16 0, Vector.replicate 16 0,
    Vector.replicate 4 (Vector.replicate 4 0), Vector.replicate 240 0, Vector.replicate 32 0⟩
  plainText := Vector.replicate 100 0
  myClosingCode := Vector.replicate 17 0
  buffer := Vector.replicate 50 0

theorem doGeneratePin_generateNewPin_start : ∃ newClosingCode newPIN newDuress s',
    generateNewPin 1700000000 12 [49, 50, 51, 52] (Vector.replicate 32 0x30) start =
      some ((newClosingCode, newPIN, newDuress), s') ∧
    (doGeneratePin newClosingCode s').map Prod.fst = some (newPIN, newDuress) := by
  obtain ⟨newClosingCode, newPIN, newDuress, s', generated⟩ :=
    @exists_generateNewPin 1700000000 12 [49, 50, 51, 52] (by simp [Decimal.ofNat])
      (Vector.replicate 32 0x30) start
  exact ⟨newClosingCode, newPIN, newDuress, s', generated,
    (doGeneratePin_generateNewPin generated).2.1 s'⟩

end CimArm.DynamicPin
