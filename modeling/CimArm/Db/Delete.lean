import CimArm.Db.RecordSet
import Mathlib.Algebra.Group.Nat.Defs
import Mathlib.Algebra.Order.Ring.Int
import Mathlib.Tactic.Ring

/-!
# Deleting a record

`delete` copies all records but one to a temporary file, renames it to the data file and opens
that again.  The record it leaves out is the one before the position of the stream.  At the
start of the file there is none: the copy then begins behind the first record, and a read at
the end of the file leaves the record before in the buffer, which is written once more.  The
temporary file is opened for appending, so what a deletion that was cut short left in it
stays in front of the copy.

The model counts in bytes, since the leftovers need not be whole records.

* `deletes_iff`: when exactly the current record is deleted.
* `delete_records`: the deletion in bytes is `RecordSet.delete` where the leftovers are records.
-/

namespace CimArm.RecordDelete

open List

/-! ## The model -/

/-- A table that is open: its data file, its record count, what is left in the temporary file,
and the handle's position in the file, end-of-file flag and record buffer. -/
structure OpenTable : Type where
  file : List UInt8
  recordCount : Nat
  tmp : List UInt8
  position : Nat
  feof : Bool
  buffer : List UInt8

/-- Where a copy is: the position in the data file, the buffer and the temporary file. -/
structure Copy : Type where
  position : Nat
  buffer : List UInt8
  tmp : List UInt8

section

variable (recordSize : Nat) (file : List UInt8)

/-- One `fread` into the buffer, which may get less, and one `fwrite` of the buffer. -/
def copyRecord (c : Copy) : Copy :=
  let got := (file.drop c.position).take recordSize
  let buffer := got ++ c.buffer.drop got.length
  { position := c.position + got.length, buffer := buffer, tmp := c.tmp ++ buffer }

def copyRecords : Nat → Copy → Copy
  | 0, c => c
  | n + 1, c => copyRecords n (copyRecord recordSize file c)

end

def decRecordCount (count : Nat) : Nat := (count + (ulongSize - 1)) % ulongSize

section

variable (recordSize : Nat) (t : OpenTable)

def delete : OpenTable :=
  let pos : Int := (t.position / recordSize : Nat) - 1
  let c : Copy := { position := 0, buffer := t.buffer, tmp := t.tmp }
  let c := copyRecords recordSize t.file pos.toNat c
  -- the one to delete is skipped
  let c := { c with position := c.position + recordSize }
  let c := copyRecords recordSize t.file (t.recordCount - (pos + 1)).toNat c
  { file := c.tmp
    recordCount := decRecordCount t.recordCount
    tmp := []
    position := 0
    feof := false
    buffer := c.buffer }

/-- The number of the current record: the one before the position, unless the last read found
the end. -/
def current : Option Nat :=
  let read := t.position / recordSize
  if 0 < read ∧ read ≤ t.recordCount ∧ t.feof = false then some (read - 1) else none

/-- The current record is deleted and no other, and nothing changes where there is none. -/
def Deletes (records : List (List UInt8)) : Prop :=
  match current recordSize t with
  | some k => (delete recordSize t).file = (records.eraseIdx k).flatten ∧
      (delete recordSize t).recordCount + 1 = records.length
  | none => (delete recordSize t).file = t.file ∧
      (delete recordSize t).recordCount = t.recordCount

/-- The table has these records, and the position of the handle is at one of them. -/
structure Holds (records : List (List UInt8)) : Prop where
  positive : 0 < recordSize
  sized : ∀ r ∈ records, r.length = recordSize
  stored : t.file = records.flatten
  counted : t.recordCount = records.length
  bounded : t.recordCount < ulongSize
  aligned : t.position = t.position / recordSize * recordSize
  buffered : t.buffer.length = recordSize

end

/-! ## Records of one size -/

section

variable {size : Nat} {records : List (List UInt8)}

theorem length_flatten (sized : ∀ r ∈ records, r.length = size) :
    records.flatten.length = records.length * size := by
  induction records with
  | nil => simp
  | cons r rest ih =>
    rw [flatten_cons, length_append, sized r mem_cons_self,
      ih fun s among => sized s (mem_cons_of_mem _ among), length_cons]
    ring

theorem drop_flatten (sized : ∀ r ∈ records, r.length = size) (a : Nat) :
    records.flatten.drop (a * size) = (records.drop a).flatten := by
  induction a generalizing records with
  | zero => simp
  | succ a ih =>
    cases records with
    | nil => simp
    | cons r rest =>
      have first : (a + 1) * size = r.length + a * size := by
        rw [sized r mem_cons_self]
        ring
      rw [flatten_cons, first, drop_length_add_append,
        ih fun s among => sized s (mem_cons_of_mem _ among), drop_succ_cons]

theorem copyRecords_whole (sized : ∀ r ∈ records, r.length = size) {m : Nat} :
    ∀ {a : Nat} {c : Copy}, a + m ≤ records.length → c.position = a * size →
      c.buffer.length = size →
        copyRecords size records.flatten m c =
          { position := (a + m) * size
            buffer := ((records.drop a).take m).getLast?.getD c.buffer
            tmp := c.tmp ++ ((records.drop a).take m).flatten } := by
  induction m with
  | zero =>
    intro a c _ position _
    rw [copyRecords, take_zero, flatten_nil, append_nil, Nat.add_zero, ← position]
    rfl
  | succ m ih =>
    intro a c inside position buffered
    obtain ⟨r, rest, here⟩ : ∃ r rest, records.drop a = r :: rest :=
      exists_cons_of_ne_nil fun none => by
        have length := congrArg List.length none
        rw [length_drop] at length
        change records.length - a = 0 at length
        omega
    have long : r.length = size :=
      sized r (mem_of_mem_drop (here ▸ mem_cons_self))
    have next : records.drop (a + 1) = rest := by
      rw [← drop_drop, here, drop_succ_cons, drop_zero]
    have got : (records.flatten.drop c.position).take size = r := by
      rw [position, drop_flatten sized, here, flatten_cons, ← long]
      exact take_left
    have step : copyRecord size records.flatten c =
        { position := (a + 1) * size, buffer := r, tmp := c.tmp ++ r } := by
      have nothing : c.buffer.drop r.length = [] :=
        drop_eq_nil_of_le (by rw [buffered, long])
      have moved : c.position + r.length = (a + 1) * size := by
        rw [position, long]
        ring
      unfold copyRecord
      dsimp only
      rw [got, nothing, append_nil, moved]
    rw [copyRecords, step, ih (a := a + 1) (by omega) rfl long, next, here, take_succ_cons,
      flatten_cons, append_assoc, List.getLast?_cons, Nat.add_right_comm, Nat.add_assoc]
    rfl

theorem copyRecord_end {c : Copy} {file : List UInt8} (ended : file.length ≤ c.position) :
    copyRecord size file c = { c with tmp := c.tmp ++ c.buffer } := by
  unfold copyRecord
  rw [drop_eq_nil_of_le ended, take_nil]
  rfl

end

theorem copyRecords_add (size : Nat) (file : List UInt8) (m n : Nat) (c : Copy) :
    copyRecords size file (m + n) c = copyRecords size file n (copyRecords size file m c) := by
  induction m generalizing c with
  | zero => rw [Nat.zero_add, copyRecords]
  | succ m ih => rw [Nat.add_right_comm, copyRecords, ih, copyRecords]

/-! ## The copy -/

theorem decRecordCount_pos {count : Nat} (positive : 0 < count) (bounded : count < ulongSize) :
    decRecordCount count + 1 = count := by
  unfold decRecordCount ulongSize
  unfold ulongSize at bounded
  omega

theorem decRecordCount_ne (count : Nat) : decRecordCount count ≠ count := by
  unfold decRecordCount ulongSize
  omega

section

variable {size : Nat} {t : OpenTable} {records : List (List UInt8)}

/-- A position behind a record: the others are copied behind what is left in the temporary
file. -/
theorem Holds.delete_behind (holds : Holds size t records) {k : Nat}
    (behind : t.position / size = k + 1) (inside : k < records.length) :
    (delete size t).file = t.tmp ++ (records.eraseIdx k).flatten := by
  have before := copyRecords_whole holds.sized (m := k) (a := 0)
    (c := ⟨0, t.buffer, t.tmp⟩) (by omega) (Nat.zero_mul size).symm holds.buffered
  have first : (((t.position / size : Nat) : Int) - 1).toNat = k := by
    rw [behind]
    omega
  have later : ((t.recordCount : Int) - (((t.position / size : Nat) : Int) - 1 + 1)).toNat =
      records.length - (k + 1) := by
    rw [behind, holds.counted]
    omega
  have last : ((records.take k).getLast?.getD t.buffer).length = size := by
    cases getLast : (records.take k).getLast? with
    | none => exact holds.buffered
    | some r => exact holds.sized r (mem_of_mem_take (mem_of_getLast? getLast))
  rw [drop_zero, Nat.zero_add] at before
  have after := copyRecords_whole holds.sized (m := records.length - (k + 1)) (a := k + 1)
    (c := ⟨k * size + size, (records.take k).getLast?.getD t.buffer,
      t.tmp ++ (records.take k).flatten⟩) (by omega) (Nat.succ_mul k size).symm last
  unfold delete
  dsimp only
  rw [first, later, holds.stored, before]
  dsimp only
  have whole : (records.drop (k + 1)).take (records.length - (k + 1)) = records.drop (k + 1) :=
    take_of_length_le (by rw [length_drop])
  rw [after]
  dsimp only
  rw [whole, eraseIdx_eq_take_drop_succ, flatten_append, append_assoc]

/-- A position past the records and the one more that a read at the end leaves: all of them
are copied. -/
theorem Holds.delete_past (holds : Holds size t records)
    (past : t.position / size = records.length + 1) :
    (delete size t).file = t.tmp ++ records.flatten := by
  have all := copyRecords_whole holds.sized (m := records.length) (a := 0)
    (c := ⟨0, t.buffer, t.tmp⟩) (by omega) (Nat.zero_mul size).symm holds.buffered
  have first : (((t.position / size : Nat) : Int) - 1).toNat = records.length := by
    rw [past]
    omega
  have later : ((t.recordCount : Int) - (((t.position / size : Nat) : Int) - 1 + 1)).toNat = 0 := by
    rw [past, holds.counted]
    omega
  unfold delete
  dsimp only
  rw [first, later, holds.stored, all, copyRecords]
  dsimp only
  rw [drop_zero, take_length]

/-- The start of the file: the first record is skipped, and the one that is last in the buffer
comes twice. -/
theorem Holds.delete_start {r : List UInt8} (holds : Holds size t (r :: records))
    (start : t.position / size = 0) :
    (delete size t).file =
      t.tmp ++ records.flatten ++ records.getLast?.getD t.buffer := by
  have rest := copyRecords_whole holds.sized (m := records.length) (a := 1)
    (c := ⟨0 + size, t.buffer, t.tmp⟩) (by rw [length_cons]; omega)
    ((Nat.zero_add size).trans (Nat.one_mul size).symm) holds.buffered
  rw [drop_succ_cons, drop_zero, take_length] at rest
  have first : (((t.position / size : Nat) : Int) - 1).toNat = 0 := by
    rw [start]
    rfl
  have later : ((t.recordCount : Int) - (((t.position / size : Nat) : Int) - 1 + 1)).toNat =
      records.length + 1 := by
    rw [start, holds.counted, length_cons]
    omega
  have ended : (r :: records).flatten.length ≤ (1 + records.length) * size := by
    rw [length_flatten holds.sized, length_cons, Nat.add_comm]
  unfold delete
  dsimp only
  rw [first, later, holds.stored, copyRecords]
  dsimp only
  rw [copyRecords_add, rest, copyRecords, copyRecords, copyRecord_end ended]

theorem Holds.delete_empty (holds : Holds size t []) (start : t.position / size = 0) :
    (delete size t).file = t.tmp := by
  have later : ((t.recordCount : Int) - (((t.position / size : Nat) : Int) - 1 + 1)).toNat = 0 := by
    rw [start, holds.counted]
    rfl
  have first : (((t.position / size : Nat) : Int) - 1).toNat = 0 := by
    rw [start]
    rfl
  unfold delete
  dsimp only
  rw [first, later, copyRecords]
  rfl

/-! ## The current record -/

theorem current_some {k : Nat} (here : current size t = some k) :
    t.position / size = k + 1 ∧ k < t.recordCount := by
  unfold current at here
  dsimp only at here
  split at here
  · next read =>
    have same := Option.some.inj here
    omega
  · simp at here

/-- Exactly the current record is deleted if and only if there is one and the temporary file is
empty or not there. -/
theorem deletes_iff (holds : Holds size t records) :
    Deletes size t records ↔ (current size t).isSome ∧ t.tmp = [] := by
  unfold Deletes
  cases here : current size t with
  | none =>
    constructor
    · intro kept
      exact absurd kept.2 (decRecordCount_ne t.recordCount)
    · intro isSome
      exact absurd isSome.1 (by decide)
  | some k =>
    obtain ⟨behind, inside⟩ := current_some here
    rw [holds.counted] at inside
    have copy := holds.delete_behind behind inside
    have positive : 0 < t.recordCount := by
      rw [holds.counted]
      omega
    have count : (delete size t).recordCount + 1 = records.length :=
      (decRecordCount_pos positive holds.bounded).trans holds.counted
    dsimp only
    rw [copy]
    constructor
    · intro deleted
      exact ⟨rfl, append_left_eq_self.mp deleted.1⟩
    · intro clean
      rw [clean.2]
      exact ⟨rfl, count⟩

end

/-- The same in bytes and in records, where the leftovers are records and the position is none
that only a seek could give. -/
theorem delete_records {size : Nat} {t : OpenTable} {records leftover : List (List UInt8)}
    (holds : Holds size t records) (left : t.tmp = leftover.flatten)
    (near : t.position / size ≤ records.length + 1) (value : Nat) (isNew isDirty : Bool) :
    (delete size t).file = (RecordSet.delete ⟨records, value⟩
      ⟨t.position / size, t.feof, t.buffer, isNew, isDirty⟩ leftover).1.records.flatten := by
  unfold RecordSet.delete
  dsimp only
  rw [flatten_append, ← left]
  cases read : t.position / size with
  | zero =>
    cases records with
    | nil =>
      rw [holds.delete_empty read]
      exact (append_nil _).symm
    | cons r rest =>
      rw [holds.delete_start read, append_assoc]
      simp
  | succ k =>
    rcases Nat.lt_or_ge k records.length with inside | outside
    · rw [holds.delete_behind read inside, eraseIdx_eq_take_drop_succ]
    · have last : k = records.length := by omega
      rw [holds.delete_past (by rw [read, last])]
      dsimp only
      rw [take_of_length_le outside, drop_eq_nil_of_le (by omega), append_nil]

/-- Three records of two bytes, with the second one current and some bytes in the temporary
file. -/
def threeRecords (tmp : List UInt8) : OpenTable :=
  ⟨[1, 1, 2, 2, 3, 3], 3, tmp, 4, false, [2, 2]⟩

theorem holds_threeRecords (tmp : List UInt8) :
    Holds 2 (threeRecords tmp) [[1, 1], [2, 2], [3, 3]] :=
  ⟨by decide, by simp, rfl, rfl, by change 3 < ulongSize; decide,
    by change 4 = 4 / 2 * 2; decide, rfl⟩

theorem delete_threeRecords :
    (delete 2 (threeRecords [1, 1])).file = (RecordSet.delete ⟨[[1, 1], [2, 2], [3, 3]], 0⟩
      ⟨2, false, [2, 2], false, false⟩ [[1, 1]]).1.records.flatten :=
  delete_records (holds_threeRecords [1, 1]) rfl (by decide) 0 false false

theorem deletes_threeRecords :
    Deletes 2 (threeRecords []) [[1, 1], [2, 2], [3, 3]] :=
  (deletes_iff (holds_threeRecords [])).mpr ⟨rfl, rfl⟩

/-- A deletion that was cut short after its first write leaves a record that comes back. -/
theorem leftovers_kept :
    ¬ ∀ (size : Nat) (t : OpenTable) (records : List (List UInt8)),
      Holds size t records → Deletes size t records := by
  intro always
  have deleted := always 2 (threeRecords [1, 1]) _ (holds_threeRecords [1, 1])
  exact absurd deleted.1 (by decide)

end CimArm.RecordDelete
