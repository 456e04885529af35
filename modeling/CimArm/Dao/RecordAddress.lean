import Mathlib.Algebra.Group.Nat.Defs
import Mathlib.Algebra.Order.Ring.Int
import Mathlib.Tactic.Ring

/-!
# Where a record of the safe box lies

`save` writes the row of a handle to the file on the board, and two other functions write a
record by its id, without the table: `addRecordToFile` and, when the record on the board has
that id, `updateRecordToFile`.  All three seek first and then write the units of a record.  The
board counts the offset of a seek in units, as it does the rows of a write: `save` multiplies
the row by the units of a record, the other two multiply by its bytes.

* `addressed_iff`: when the other two write where `save` does.
-/

namespace CimArm.RecordAddress

open List

/-! ## The model -/

/-- The sizes of a table, and where its rows begin in the file, in units.  The offsets are `int`
and the table buffer is allocated with one. -/
structure Layout : Type where
  recordSize : Nat
  unitSize : Nat
  fileOffset : Nat
  maxRows : Nat
  filled : 0 < recordSize
  measured : 0 < unitSize
  small : fileOffset + maxRows * recordSize < 2 ^ 31

/-- A seek and the read or write behind it: the offset and the number of units. -/
structure Access : Type where
  offset : Nat
  numRows : Nat
  deriving DecidableEq

/-- What a call asks of the board, and what it returns; `none` raises. -/
structure Call (α : Type) : Type where
  accesses : List Access
  result : Option α

namespace Layout

variable (g : Layout)

/-- `myRecordSize / myUnitSize`. -/
def units : Nat := g.recordSize / g.unitSize

/-- Where the two functions seek to. -/
def offsetOfId (anId : Nat) : Nat := g.fileOffset + (anId - 1) * g.recordSize

/-- `addRecordToFile`, by what `fsWrite` answers. -/
def addRecordToFile (anId : Nat) (wrote : Option Nat) : Call Bool :=
  { accesses := [⟨g.offsetOfId anId, g.units⟩]
    result := wrote.map fun n => decide (n = g.units) }

/-- `updateRecordToFile`, by what `fsRead` answers, with the id in the record that is read, and
by what `fsWrite` answers. -/
def updateRecordToFile (anId : Nat) (read : Option (Nat × Nat)) (wrote : Option Nat) :
    Call Bool :=
  let looked : Access := ⟨g.offsetOfId anId, g.units⟩
  match read with
  | none => ⟨[looked], none⟩
  | some (qty, value) =>
    if qty = g.units ∧ value = anId then
      { accesses := [looked, ⟨g.offsetOfId anId, g.units⟩]
        result := wrote.map fun n => decide (n = g.units) }
    else ⟨[looked], some false⟩

/-- `writeRecordToFile`, with which `save` writes a row. -/
def writeRecordToFile (myCurrentRow : Nat) (wrote : Option Nat) : Call Unit :=
  { accesses := [⟨g.fileOffset + myCurrentRow * g.units, g.units⟩]
    result := wrote.bind fun n => if n ≠ g.units then none else some () }

/-! ## Bytes of the file -/

/-- The bytes of the file that an access is about, from the first to before the last. -/
def bytes (a : Access) : Nat × Nat :=
  (a.offset * g.unitSize, (a.offset + a.numRows) * g.unitSize)

/-- The rows of the table end before the byte. -/
def fileEnd : Nat := (g.fileOffset + g.maxRows * g.units) * g.unitSize

def Disjoint (a b : Nat × Nat) : Prop := a.2 ≤ b.1 ∨ b.2 ≤ a.1

/-- All accesses to the record with an id are to the bytes of the row before it, which lie in the
file and apart from all bytes of the other records. -/
def Addressed (anId : Nat) : Prop :=
  ∀ (read : Option (Nat × Nat)) (wrote : Option Nat),
    ∀ a ∈ (g.addRecordToFile anId wrote).accesses ++
        (g.updateRecordToFile anId read wrote).accesses,
      [a] = (g.writeRecordToFile (anId - 1) wrote).accesses ∧
      (g.bytes a).2 ≤ g.fileEnd ∧
      ∀ other, 1 ≤ other → other ≤ g.maxRows → other ≠ anId →
        ∀ b ∈ (g.addRecordToFile other wrote).accesses ++
            (g.updateRecordToFile other read wrote).accesses ++
            (g.writeRecordToFile (other - 1) wrote).accesses,
          Disjoint (g.bytes a) (g.bytes b)

/-! ## Addresses -/

variable {g}

theorem units_le : g.units ≤ g.recordSize := Nat.div_le_self _ _

theorem units_lt (larger : g.unitSize ≠ 1) : g.units < g.recordSize := by
  have measured := g.measured
  exact Nat.div_lt_self g.filled (by omega)

theorem units_one (byte : g.unitSize = 1) : g.units = g.recordSize := by
  rw [units, byte, Nat.div_one]

theorem mem_accesses {anId : Nat} {read : Option (Nat × Nat)} {wrote : Option Nat} {a : Access}
    (asked : a ∈ (g.addRecordToFile anId wrote).accesses ++
      (g.updateRecordToFile anId read wrote).accesses) :
    a = ⟨g.offsetOfId anId, g.units⟩ := by
  rcases mem_append.mp asked with added | updated
  · exact mem_singleton.mp added
  · unfold updateRecordToFile at updated
    cases read with
    | none => exact mem_singleton.mp updated
    | some answer =>
      dsimp only at updated
      split at updated
      · simpa using updated
      · exact mem_singleton.mp updated

theorem apart_of_step {first other step : Nat} (differ : first ≠ other) (wide : g.units ≤ step)
    (start : Nat) : Disjoint (g.bytes ⟨start + first * step, g.units⟩)
      (g.bytes ⟨start + other * step, g.units⟩) := by
  unfold Disjoint bytes
  dsimp only
  rcases Nat.lt_or_gt_of_ne differ with before | behind
  · refine .inl (Nat.mul_le_mul_right _ ?_)
    have next := Nat.mul_le_mul_right step before
    rw [Nat.succ_mul] at next
    omega
  · refine .inr (Nat.mul_le_mul_right _ ?_)
    have next := Nat.mul_le_mul_right step behind
    rw [Nat.succ_mul] at next
    omega

theorem bytes_le_fileEnd {row : Nat} (inside : row < g.maxRows) :
    (g.bytes ⟨g.fileOffset + row * g.units, g.units⟩).2 ≤ g.fileEnd := by
  unfold bytes fileEnd
  dsimp only
  refine Nat.mul_le_mul_right _ ?_
  have next := Nat.mul_le_mul_right g.units inside
  rw [Nat.succ_mul] at next
  omega

end Layout

open Layout

/-- The two functions write where `save` does, in the file and apart from all other records, if
and only if a unit is a byte or the record is the first. -/
theorem addressed_iff (g : Layout) {anId : Nat} (first : 1 ≤ anId) (last : anId ≤ g.maxRows) :
    g.Addressed anId ↔ g.unitSize = 1 ∨ anId = 1 := by
  constructor
  · intro addressed
    by_contra neither
    obtain ⟨larger, later⟩ := not_or.mp neither
    have asked : (⟨g.offsetOfId anId, g.units⟩ : Access) ∈
        (g.addRecordToFile anId none).accesses ++
          (g.updateRecordToFile anId none none).accesses :=
      mem_append_left _ (mem_singleton_self _)
    have same := (addressed none none _ asked).1
    have offset : g.offsetOfId anId = g.fileOffset + (anId - 1) * g.units :=
      congrArg Access.offset (singleton_inj.mp same)
    have less := Nat.mul_lt_mul_of_pos_left (units_lt larger) (by omega : 0 < anId - 1)
    unfold offsetOfId at offset
    omega
  · intro condition read wrote a asked
    rw [mem_accesses asked]
    have same : g.offsetOfId anId = g.fileOffset + (anId - 1) * g.units := by
      unfold offsetOfId
      rcases condition with byte | one
      · rw [units_one byte]
      · rw [one, Nat.sub_self, Nat.zero_mul, Nat.zero_mul]
    refine ⟨?_, ?_, fun other low high differ b among => ?_⟩
    · rw [same]
      rfl
    · rw [same]
      exact bytes_le_fileEnd (by omega)
    · have rows : anId - 1 ≠ other - 1 := by omega
      rcases mem_append.mp among with byId | byRow
      · rw [mem_accesses byId]
        exact apart_of_step rows units_le g.fileOffset
      · rw [mem_singleton.mp byRow, same]
        exact apart_of_step rows (Nat.le_refl _) g.fileOffset

/-- The third record of a table with units of a byte. -/
theorem addressed_byte :
    (⟨58, 1, 100, 20, by decide, by decide, by decide⟩ : Layout).Addressed 3 :=
  (addressed_iff _ (by decide) (by decide)).mpr (.inl rfl)

/-- The second record of a table whose units are records. -/
theorem addressed_elsewhere :
    ¬ ∀ (g : Layout) (anId : Nat), 1 ≤ anId → anId ≤ g.maxRows → g.Addressed anId := by
  intro always
  have addressed := always ⟨58, 58, 0, 20, by decide, by decide, by decide⟩ 2 (by decide)
    (by decide) none none ⟨58, 1⟩ mem_cons_self
  exact absurd addressed.1 (by decide)

end CimArm.RecordAddress
