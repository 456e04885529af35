import CimArm.Db.StringFields
import CimArm.System.Bcd

/-!
# BCD fields

A BCD field is set from an array of 100 bytes that the string was encoded in, of which
as many bytes are taken as the field has, and read through an array of that size.  What was in
the arrays is not known; the nibble behind the string, if the field has one, ends it.

* `setBcdValue_roundTrip`: a string set in a BCD field is read back from it.
-/

namespace CimArm

open Bcd

/-- A BCD field. The accessors have room for one byte more than it has. -/
structure BcdField (n : Nat) : Type extends Field n where
  fits : len < 100

namespace RecordSet

variable {n : Nat} {t : Table (Vector UInt8 n)} {self : RecordSet (Vector UInt8 n)}

/-- `setBcdValue`, which raises where there is no record to edit. -/
def setBcdValue (t : Table (Vector UInt8 n)) (self : RecordSet (Vector UInt8 n))
    (field : BcdField n) (buf : Nat → UInt8) (aValue : CString) :
    Option (RecordSet (Vector UInt8 n)) :=
  let buf := asciiToBcd buf aValue
  if self.eof t && !self.isNewRecord then none
  else
    some { self with
      isDirty := true
      buffer := Buffer.copy self.buffer field.offset ((List.range field.len).map buf) }

/-- `getBcdValue`, which raises before the first record. -/
def getBcdValue (self : RecordSet (Vector UInt8 n)) (field : BcdField n) (bcd : Nat → UInt8) :
    Option CString :=
  if self.pos = 0 && !self.isNewRecord then none
  else
    let value := Buffer.read self.buffer field.offset field.len
    some (bcdToAscii (fun p => value[p]?.getD (bcd p)) (field.len * 2))

end RecordSet

namespace Bcd

theorem decodeFrom_congr {m m' : Nat → UInt8} {len i left : Nat} (inside : i + left ≤ len * 2)
    (same : ∀ p < len, m p = m' p) : decodeFrom m i left = decodeFrom m' i left := by
  induction left generalizing i with
  | zero => rfl
  | succ left ih =>
    have byte : m (i / 2) = m' (i / 2) := same _ (by omega)
    have char : getCharFromBcd m i = getCharFromBcd m' i := by
      rw [getCharFromBcd, getCharFromBcd, byte]
    rw [decodeFrom, decodeFrom, char, ih (by omega)]

end Bcd

namespace RecordSet

variable {n : Nat} {t : Table (Vector UInt8 n)} {self : RecordSet (Vector UInt8 n)}

theorem Editing.setBcdValue {old : Vector UInt8 n} (editing : self.Editing t old)
    {field : BcdField n} (value : BcdText field.len) (buf bcd : Nat → UInt8) :
    ∃ set, self.setBcdValue t field buf value.chars = some set ∧
      set.getBcdValue field bcd = some value.chars ∧
      ∀ p (hp : p < n), ¬ field.Has p → set.buffer[p] = self.buffer[p] := by
  have editable : (self.eof t && !self.isNewRecord) = false ∧
      (decide (self.pos = 0) && !self.isNewRecord) = false := by
    rcases editing with ⟨new, -⟩ | ⟨-, flag, k, pos, record⟩
    · simp [new]
    · have inside := (List.getElem?_eq_some_iff.1 record).1
      have before : self.eof t = false := by
        simp only [eof, flag, Bool.or_false, decide_eq_false_iff_not]
        omega
      simp [before, pos]
  refine ⟨_, (if_neg (editable.1 ▸ Bool.false_ne_true)).trans rfl, ?_, fun p hp outside => ?_⟩
  · have width : ((List.range field.len).map (asciiToBcd buf value.chars)).length = field.len := by
      simp
    have read := Buffer.read_copy self.buffer field.inside (Nat.le_of_eq width)
    rw [width, List.drop_eq_nil_of_le (by simp), List.append_nil] at read
    rw [getBcdValue, if_neg (editable.2 ▸ Bool.false_ne_true)]
    dsimp only
    rw [read]
    refine congrArg some (Eq.trans ?_ (bcdToAscii_asciiToBcd buf value))
    refine decodeFrom_congr (Nat.le_of_eq (Nat.zero_add _)) fun p hp => ?_
    rw [List.getElem?_map, List.getElem?_range hp]
    rfl
  · refine Buffer.copy_outside _ hp fun inside => outside ⟨inside.1, ?_⟩
    simpa using inside.2

end RecordSet

/-- A string of digits, `*` and `#` is read back from a BCD field that has room for it, also
where the reader has the whole memory; the other fields are left alone. -/
theorem setBcdValue_roundTrip (n : Nat) :
    (∀ (len : Nat) (value : BcdText len) (dest : Nat → UInt8),
      bcdToAscii (asciiToBcd dest value.chars) (len * 2) = value.chars ∧
        ∀ p, len < p → asciiToBcd dest value.chars p = dest p) ∧
    ∀ (field : BcdField n) (value : BcdText field.len) (t : Table (Vector UInt8 n))
      (self : RecordSet (Vector UInt8 n)) (old : Vector UInt8 n), self.Editing t old →
      ∀ buf bcd : Nat → UInt8, ∃ set, self.setBcdValue t field buf value.chars = some set ∧
        set.getBcdValue field bcd = some value.chars ∧
        ∀ p (hp : p < n), ¬ field.Has p → set.buffer[p] = self.buffer[p] :=
  ⟨fun _ value dest => ⟨bcdToAscii_asciiToBcd dest value,
      fun _ outside => asciiToBcd_outside dest value outside⟩,
    fun _ value _ _ _ editing buf bcd => editing.setBcdValue value buf bcd⟩

/-- The last four bytes of a record of names. -/
def numberField : BcdField 8 where
  toField := nameField.toField
  fits := by decide

def numberStar : BcdText numberField.len := ⟨[49, 42, 48], by decide +kernel, by decide⟩

theorem setBcdValue_roundTrip_names :
    ∃ set, ((RecordSet.open namesSchema.toSchema).add namesSchema.toSchema).setBcdValue
        Table.empty numberField (fun _ => 7) numberStar.chars = some set ∧
      set.getBcdValue numberField (fun _ => 9) = some numberStar.chars ∧
      ∀ p (hp : p < 8), ¬ numberField.Has p → set.buffer[p] =
        ((RecordSet.open namesSchema.toSchema).add namesSchema.toSchema).buffer[p] :=
  (setBcdValue_roundTrip 8).2 numberField numberStar Table.empty _
    (Vector.replicate 8 0) (.inl ⟨rfl, rfl⟩) _ _

end CimArm
