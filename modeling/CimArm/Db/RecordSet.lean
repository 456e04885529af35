import CimArm.Lib.BinarySearch
import Mathlib.Algebra.Group.Nat.Defs
import Mathlib.Data.List.Basic

/-!
# Tables and record sets

A `Table` is a data file of fixed-size records with the auto-increment value the
program keeps for it; a `RecordSet` is a handle on one: a file position, the
end-of-file flag of the C stream, and the buffer of the last record read or being
edited.  Positions are counted in records.  Every read leaves the position after
the record it read, which is what `movePrev` and `update` rely on.

The record count of a table is loaded from the size of its file and follows every
append, so it is the length of the list of records.  Auto-increment values are
32 bits wide.
-/

namespace CimArm

open List

/-- A data file and the auto-increment value kept for it. -/
structure Table (R : Type) : Type where
  records : List R
  autoIncValue : Nat

/-- What the record layer knows about the fields of a record: the blank record
and, for a table with an `AUTOINC` field, its reader and writer. -/
structure Schema (R : Type) : Type where
  blank : R
  autoIncField : Option ((R → Nat) × (Nat → R → R))

/-- The number of values of an `unsigned long`. -/
def ulongSize : Nat := 2 ^ 32

/-- An open handle on a table. -/
structure RecordSet (R : Type) : Type where
  pos : Nat
  feof : Bool
  buffer : R
  isNewRecord : Bool
  isDirty : Bool

/-- The origins of a `seek`. -/
inductive SeekOrigin
  | set | cur | end
  deriving DecidableEq

namespace Table

variable {R : Type} (schema : Schema R)

def empty : Table R := ⟨[], 0⟩

/-- Hand out the next auto-increment value. -/
def nextAutoInc (self : Table R) : Nat := (self.autoIncValue + 1) % ulongSize

/-- The value kept for a table when it is opened: that of its last record. -/
def loadAutoIncValue (self : Table R) : Nat :=
  match schema.autoIncField, self.records.getLast? with
  | some (read, _), some r => read r
  | _, _ => 0

end Table

namespace RecordSet

variable {R : Type} (schema : Schema R) (t : Table R) (self : RecordSet R)

/-- A handle just opened: at the start of the file, its buffer not yet read. -/
def «open» : RecordSet R := ⟨0, false, schema.blank, false, false⟩

/-- `fseek`: an offset before the start fails, any other clears the flag. -/
def fseek (target : Int) : Bool × RecordSet R :=
  if target < 0 then (false, self) else (true, { self with pos := target.toNat, feof := false })

/-- `fread` of one record: past the last record it only raises the flag. -/
def fread : RecordSet R :=
  match t.records[self.pos]? with
  | some r => { self with buffer := r, pos := self.pos + 1 }
  | none => { self with feof := true }

def eof : Bool := t.records.length = 0 || self.feof

def bof : Bool := self.pos = 0

/-- The record count; asking for it clears the end-of-file flag. -/
def getRecordCount : Nat × RecordSet R := (t.records.length, { self with feof := false })

def seek (aDirection : SeekOrigin) (anOffset : Int) : RecordSet R :=
  let base : Nat := match aDirection with
    | .set => 0
    | .cur => self.pos
    | .end => t.records.length
  match ({ self with isNewRecord := false, isDirty := false }).fseek (base + anOffset) with
  | (true, self) => self.fread t
  | (false, self) => self

def moveFirst : Bool × RecordSet R :=
  let self := self.seek t .set 0
  (!self.eof t, self)

def moveBeforeFirst : Bool × RecordSet R :=
  let self := (self.fseek 0).2
  (!self.eof t, self)

def moveNext : Bool × RecordSet R :=
  if self.eof t then (false, self)
  else
    let self := ({ self with isNewRecord := false, isDirty := false }).fread t
    (!self.eof t, self)

/-- Step back over the current record and the one before, and read that one. -/
def movePrev : Bool × RecordSet R :=
  if self.bof then (false, self)
  else
    let self := match self.fseek (self.pos - 2) with
      | (true, self) => self.fread t
      | (false, self) => (self.fseek 0).2
    (!self.bof, self)

def moveLast : Bool × RecordSet R :=
  if self.bof && self.eof t then (false, self)
  else
    let self := self.seek t .end (-1)
    (!self.bof, self)

def moveAfterLast : Bool × RecordSet R :=
  let self := ((self.fseek (t.records.length + 1)).2).fread t
  (!self.bof, self)

def getCurrentPos : Nat := self.pos

/-- Start a new record in a zeroed buffer. -/
def add : RecordSet R := { self with buffer := schema.blank, isNewRecord := true }

/-- Edit the buffer; every setter marks it dirty. -/
def setRecordBuffer (aBuffer : R) : RecordSet R := { self with buffer := aBuffer, isDirty := true }

/-- Write the buffer at the position, which moves past it. Past the end of the
file the gap reads as blank records. -/
def fwrite : Table R × RecordSet R :=
  ({ t with records := t.records.take self.pos ++
      List.replicate (self.pos - t.records.length) schema.blank ++ [self.buffer] ++
      t.records.drop (self.pos + 1) },
    { self with pos := self.pos + 1 })

/-- Prepare a new record: go to the end and take the next auto-increment value. -/
def append : Nat × Table R × RecordSet R :=
  let self := if self.feof then self else (self.fseek t.records.length).2
  match schema.autoIncField with
  | some (_, write) =>
    (t.nextAutoInc, { t with autoIncValue := t.nextAutoInc },
      self.setRecordBuffer (write t.nextAutoInc self.buffer))
  | none => (0, t, self)

/-- Prepare the rewriting of the current record. -/
def update : Nat × RecordSet R :=
  let autoIncValue := match schema.autoIncField with
    | some (read, _) => read self.buffer
    | none => 0
  (autoIncValue, (self.fseek (self.pos - 1)).2)

/-- Save the buffer, if a setter changed it. -/
def save : Nat × Table R × RecordSet R :=
  if !self.isDirty then (0, t, self)
  else
    let (autoIncValue, t, self) :=
      if self.isNewRecord then self.append schema t
      else
        let (autoIncValue, self) := self.update schema
        (autoIncValue, t, self)
    let (t, self) := self.fwrite schema t
    (autoIncValue, t, { self with isDirty := false, isNewRecord := false })

/-- Delete the current record by copying the others to a temporary file, opened
for appending, that then replaces the data file. `tmp` is what a deletion that
was cut short left in it. -/
def delete (tmp : List R) : Table R × RecordSet R :=
  let records := match self.pos with
    | 0 =>
      -- no current record: the copy skips the first record and its last read finds no data,
      -- so it repeats the one before
      match t.records with
      | [] => []
      | _ :: rest => rest ++ [rest.getLast?.getD self.buffer]
    | pos + 1 => t.records.take pos ++ t.records.drop (pos + 1)
  ({ t with records := tmp ++ records }, { self with pos := 0, feof := false })

/-- The search loop; `hi` is the source's `high + 1`. -/
def searchLoop (field : R → Nat) (aValue : Nat) :
    Nat → Nat → Nat → RecordSet R → Bool × RecordSet R
  | 0, _, _, self => (false, self)
  | fuel + 1, low, hi, self =>
    if low < hi then
      let middle := BinarySearch.middle low hi
      let self := self.seek t .set middle
      let value := field self.buffer
      if value = aValue then (true, self)
      else if aValue < value then searchLoop field aValue fuel low middle self
      else searchLoop field aValue fuel (middle + 1) hi self
    else (false, self)

/-- Binary search of a field of the records; each probe halves the range, so the
record count bounds the number of probes. -/
def binarySearch (field : R → Nat) (aValue : Nat) : Bool × RecordSet R :=
  let (count, self) := self.getRecordCount t
  if count = 0 then (false, self) else searchLoop t field aValue count 0 count self

/-- Remove the file: the table starts again empty. -/
def deleteAll : Table R × RecordSet R := (Table.empty, RecordSet.open schema)

/-! ## What each movement does -/

/-- The handle just after reading record `k`. -/
def onRecord (k : Nat) (r : R) : RecordSet R := ⟨k + 1, false, r, false, false⟩

variable {t : Table R} {self : RecordSet R}

theorem fseek_of_eq {target : Int} {n : Nat} (h : target = n) :
    self.fseek target = (true, { self with pos := n, feof := false }) := by
  subst h
  rw [fseek, if_neg (by omega)]
  rfl

theorem fseek_neg {target : Int} (h : target < 0) : self.fseek target = (false, self) := by
  rw [fseek, if_pos h]

variable {r : R}

theorem fread_of_getElem? (h : t.records[self.pos]? = some r) :
    self.fread t = { self with buffer := r, pos := self.pos + 1 } := by
  rw [fread, h]

theorem fread_of_length_le (h : t.records.length ≤ self.pos) :
    self.fread t = { self with feof := true } := by
  rw [fread, List.getElem?_eq_none h]

theorem seek_set {k : Nat} (h : t.records[k]? = some r) : self.seek t .set k = onRecord k r := by
  rw [seek, fseek_of_eq (n := k) (by simp)]
  exact fread_of_getElem? h

theorem seek_set_neg {k : Int} (h : k < 0) :
    self.seek t .set k = { self with isNewRecord := false, isDirty := false } := by
  rw [seek, fseek_neg (by simpa using h)]

theorem moveBeforeFirst_snd : (self.moveBeforeFirst t).2 = { self with pos := 0, feof := false } := by
  simp [moveBeforeFirst, fseek]

theorem moveBeforeFirst_fst : (self.moveBeforeFirst t).1 = !decide (t.records.length = 0) := by
  simp [moveBeforeFirst, fseek, eof]

theorem moveFirst_cons {rest : List R} (h : t.records = r :: rest) :
    self.moveFirst t = (true, onRecord 0 r) := by
  have first : self.seek t .set 0 = onRecord 0 r := by
    exact seek_set (k := 0) (by simp [h])
  simp [moveFirst, first, eof, onRecord, h]

theorem moveNext_read (h : t.records[self.pos]? = some r) (hf : self.feof = false) :
    self.moveNext t = (true, onRecord self.pos r) := by
  have nonempty : t.records.length ≠ 0 := by
    intro hnil
    simp [eq_nil_of_length_eq_zero hnil] at h
  simp [moveNext, eof, hf, fread, h, onRecord, nonempty]

theorem moveNext_nil (h : t.records = []) : self.moveNext t = (false, self) := by
  simp [moveNext, eof, h]

theorem movePrev_start (h : self.pos = 0) : self.movePrev t = (false, self) := by
  simp [movePrev, bof, h]

theorem movePrev_read {k : Nat} (hpos : self.pos = k + 2) (h : t.records[k]? = some r) :
    self.movePrev t = (true, { self with pos := k + 1, feof := false, buffer := r }) := by
  have back : self.fseek (self.pos - 2) = (true, { self with pos := k, feof := false }) :=
    fseek_of_eq (by omega)
  have read : ({ self with pos := k, feof := false } : RecordSet R).fread t =
      { self with pos := k + 1, feof := false, buffer := r } := fread_of_getElem? h
  simp only [movePrev, back, read]
  simp [bof, hpos]

theorem movePrev_first (hpos : self.pos = 1) :
    self.movePrev t = (false, { self with pos := 0, feof := false }) := by
  have back : self.fseek (self.pos - 2) = (false, self) := fseek_neg (by omega)
  have start : self.fseek 0 = (true, { self with pos := 0, feof := false }) := fseek_of_eq (by simp)
  simp only [movePrev, back, start]
  simp [bof, hpos]

/-- Past the last record `moveNext` fails, leaves position and buffer and is at the end. -/
theorem moveNext_end (h : t.records.length ≤ self.pos) :
    (self.moveNext t).1 = false ∧ (self.moveNext t).2.eof t = true ∧
      (self.moveNext t).2.pos = self.pos ∧ (self.moveNext t).2.buffer = self.buffer ∧
      (self.isNewRecord = false → (self.moveNext t).2.isNewRecord = false) := by
  cases heof : self.eof t with
  | true => simp [moveNext, heof]
  | false =>
    have read : ({ self with isNewRecord := false, isDirty := false } : RecordSet R).fread t =
        { self with feof := true, isNewRecord := false, isDirty := false } := fread_of_length_le h
    rw [moveNext, if_neg (by simp [heof]), read]
    simp [eof]

theorem moveLast_snoc {init : List R} (h : t.records = init ++ [r])
    (hf : self.feof = true → self.pos ≠ 0) : self.moveLast t = (true, onRecord init.length r) := by
  have last : self.seek t .end (-1) = onRecord init.length r := by
    have target : ((t.records.length : Int) + -1) = init.length := by
      rw [h, length_append, length_singleton]
      omega
    rw [seek, fseek_of_eq target]
    exact fread_of_getElem? (by simp [h])
  have inside : (self.bof && self.eof t) = false := by
    cases hflag : self.feof with
    | false => simp [eof, hflag, h]
    | true => simp [bof, hf hflag]
  rw [moveLast, inside]
  simp [last, bof, onRecord]

theorem delete_first {rest : List R} (h : t.records = r :: rest) (b : R) :
    (onRecord 0 b).delete t [] = ({ t with records := rest }, ⟨0, false, b, false, false⟩) := by
  simp [delete, onRecord, h]

/-! ## The end-of-file flag at the start -/

/-- At the start of a file only an empty one has raised the end-of-file flag. -/
def FlagSound (t : Table R) (self : RecordSet R) : Prop :=
  self.feof = true → self.pos = 0 → t.records = []

theorem flagSound_of_feof (h : self.feof = false) : self.FlagSound t := fun flag => by
  simp [h] at flag

theorem flagSound_of_pos (h : self.pos ≠ 0) : self.FlagSound t := fun _ pos => absurd pos h

theorem FlagSound.fseek (sound : self.FlagSound t) (target : Int) :
    (self.fseek target).2.FlagSound t := by
  rw [RecordSet.fseek]
  split_ifs
  · exact sound
  · exact flagSound_of_feof rfl

theorem flagSound_fread (t : Table R) (self : RecordSet R) : (self.fread t).FlagSound t := by
  cases hr : t.records[self.pos]? with
  | some r => exact fread_of_getElem? hr ▸ flagSound_of_pos (Nat.succ_ne_zero _)
  | none =>
    rw [RecordSet.fread, hr]
    intro _ pos
    have start : self.pos = 0 := pos
    rw [start, List.getElem?_eq_none_iff] at hr
    exact eq_nil_of_length_eq_zero (Nat.le_zero.1 hr)

theorem FlagSound.readAt (sound : self.FlagSound t) (target : Int) :
    (match self.fseek target with
      | (true, self) => self.fread t
      | (false, self) => self).FlagSound t := by
  have moved := sound.fseek target
  split
  next => exact flagSound_fread t _
  next heq => simpa only [heq] using moved

theorem FlagSound.seek (sound : self.FlagSound t) (aDirection : SeekOrigin) (anOffset : Int) :
    (self.seek t aDirection anOffset).FlagSound t := by
  have clear : ({ self with isNewRecord := false, isDirty := false } : RecordSet R).FlagSound t :=
    sound
  cases aDirection <;> exact clear.readAt _

theorem FlagSound.moveNext (sound : self.FlagSound t) : (self.moveNext t).2.FlagSound t := by
  rw [RecordSet.moveNext]
  split_ifs
  · exact sound
  · exact flagSound_fread t _

theorem FlagSound.movePrev (sound : self.FlagSound t) : (self.movePrev t).2.FlagSound t := by
  rw [RecordSet.movePrev]
  split_ifs
  · exact sound
  · have moved := sound.fseek (self.pos - 2)
    split
    next => exact flagSound_fread t _
    next heq => exact FlagSound.fseek (by simpa only [heq] using moved) 0

theorem FlagSound.moveFirst (sound : self.FlagSound t) : (self.moveFirst t).2.FlagSound t :=
  sound.seek .set 0

theorem FlagSound.moveBeforeFirst (sound : self.FlagSound t) :
    (self.moveBeforeFirst t).2.FlagSound t :=
  sound.fseek 0

theorem FlagSound.moveLast (sound : self.FlagSound t) : (self.moveLast t).2.FlagSound t := by
  rw [RecordSet.moveLast]
  split_ifs
  · exact sound
  · exact sound.seek .end (-1)

/-! ## Binary search -/

/-- The value of the field in record `k`. -/
def keyAt (t : Table R) (field : R → Nat) (k : Nat) : Nat := (t.records[k]?.map field).getD 0

/-- The search loop reads the records that the search over their keys probes, and
a hit is the record just read. -/
theorem searchLoop_eq (field : R → Nat) (aValue : Nat) (fuel low hi : Nat)
    (hhi : hi ≤ t.records.length) (self : RecordSet R) :
    (searchLoop t field aValue fuel low hi self).1 =
        (BinarySearch.search (keyAt t field) aValue fuel low hi).isSome ∧
      ∀ j, BinarySearch.search (keyAt t field) aValue fuel low hi = some j →
        ∃ r, t.records[j]? = some r ∧
          (searchLoop t field aValue fuel low hi self).2 = onRecord j r := by
  induction fuel generalizing low hi self with
  | zero => simp [searchLoop, BinarySearch.search]
  | succ fuel ih =>
    rw [searchLoop, BinarySearch.search]
    by_cases nonempty : low < hi
    · have hlt := BinarySearch.middle_lt nonempty
      have hr := List.getElem?_eq_getElem (Nat.lt_of_lt_of_le hlt hhi)
      generalize t.records[BinarySearch.middle low hi] = r at hr
      have key : keyAt t field (BinarySearch.middle low hi) = field r := by simp [keyAt, hr]
      have probe : self.seek t .set (BinarySearch.middle low hi) =
          onRecord (BinarySearch.middle low hi) r := seek_set hr
      have value : field (onRecord (BinarySearch.middle low hi) r).buffer = field r := rfl
      rw [if_pos nonempty, if_pos nonempty]
      simp only [probe, key, value]
      split_ifs
      · refine ⟨rfl, fun j hj => ?_⟩
        obtain rfl := Option.some.inj hj
        exact ⟨r, hr, rfl⟩
      · exact ih low _ (by omega) _
      · exact ih _ hi hhi _
    · rw [if_neg nonempty, if_neg nonempty]
      simp

/-- Over records sorted by the field, the search finds the value exactly when a
record has it, and then has read such a record. -/
theorem binarySearch_eq (field : R → Nat) (aValue : Nat) (self : RecordSet R)
    (sorted : t.records.Pairwise fun a b => field a ≤ field b) :
    ((self.binarySearch t field aValue).1 = true ↔ ∃ r ∈ t.records, field r = aValue) ∧
      ((self.binarySearch t field aValue).1 = true → ∃ j r, t.records[j]? = some r ∧
        field r = aValue ∧ (self.binarySearch t field aValue).2 = onRecord j r) := by
  have getKey (j : Nat) (hj : j < t.records.length) : keyAt t field j = field t.records[j] := by
    simp [keyAt, hj]
  have mono (i j : Nat) (_ : 0 ≤ i) (hij : i ≤ j) (hj : j < t.records.length) :
      keyAt t field i ≤ keyAt t field j := by
    rw [getKey i (by omega), getKey j hj]
    rcases Nat.eq_or_lt_of_le hij with rfl | hlt
    · exact Nat.le_refl _
    · exact pairwise_iff_getElem.1 sorted i j _ _ hlt
  have sound := BinarySearch.search_isSome (v := aValue) (Nat.le_refl (t.records.length - 0)) mono
  obtain ⟨result, onHit⟩ := searchLoop_eq (t := t) field aValue t.records.length 0
    t.records.length (Nat.le_refl _) (self.getRecordCount t).2
  by_cases empty : t.records.length = 0
  · have nothing : self.binarySearch t field aValue = (false, (self.getRecordCount t).2) :=
      if_pos empty
    rw [nothing, eq_nil_of_length_eq_zero empty]
    simp
  · have search : self.binarySearch t field aValue = searchLoop t field aValue t.records.length 0
        t.records.length (self.getRecordCount t).2 := if_neg empty
    rw [search, result]
    refine ⟨?_, fun found => ?_⟩
    · rw [show t.records.length - 0 = t.records.length from rfl] at sound
      rw [sound]
      constructor
      · rintro ⟨i, -, hi, hkey⟩
        exact ⟨t.records[i], getElem_mem hi, by rw [← getKey i hi, hkey]⟩
      · rintro ⟨r, hr, hkey⟩
        obtain ⟨i, hi, rfl⟩ := getElem_of_mem hr
        exact ⟨i, Nat.zero_le _, hi, by rw [getKey i hi, hkey]⟩
    · obtain ⟨j, hj⟩ := Option.isSome_iff_exists.1 found
      obtain ⟨r, hr, handle⟩ := onHit j hj
      obtain ⟨-, -, hkey⟩ := BinarySearch.search_some hj
      exact ⟨j, r, hr, by simpa [keyAt, hr] using hkey, handle⟩

theorem FlagSound.searchLoop (sound : self.FlagSound t) (field : R → Nat)
    (aValue fuel low hi : Nat) : (searchLoop t field aValue fuel low hi self).2.FlagSound t := by
  induction fuel generalizing low hi self with
  | zero => exact sound
  | succ fuel ih =>
    rw [RecordSet.searchLoop]
    have probe := sound.seek .set (BinarySearch.middle low hi)
    dsimp only
    split_ifs
    · exact probe
    · exact ih probe _ _
    · exact ih probe _ _
    · exact sound

theorem flagSound_binarySearch (t : Table R) (self : RecordSet R) (field : R → Nat)
    (aValue : Nat) : (self.binarySearch t field aValue).2.FlagSound t := by
  have clear : (self.getRecordCount t).2.FlagSound t := flagSound_of_feof rfl
  show (if t.records.length = 0 then (false, (self.getRecordCount t).2)
    else RecordSet.searchLoop t field aValue _ 0 _ (self.getRecordCount t).2).2.FlagSound t
  split_ifs
  · exact clear
  · exact clear.searchLoop _ _ _ _ _

/-! ## The handle is of a stored record -/

theorem fread_isNewRecord : (self.fread t).isNewRecord = self.isNewRecord := by
  rw [fread]
  split <;> rfl

theorem fseek_isNewRecord (target : Int) :
    (self.fseek target).2.isNewRecord = self.isNewRecord := by
  rw [fseek]
  split_ifs <;> rfl

theorem seek_isNewRecord (aDirection : SeekOrigin) (anOffset : Int) :
    (self.seek t aDirection anOffset).isNewRecord = false := by
  have kept := @fseek_isNewRecord R { self with isNewRecord := false, isDirty := false }
  cases aDirection <;> unfold seek <;> dsimp only <;> split
  all_goals rename_i moved
  all_goals have same := congrArg (·.2.isNewRecord) moved
  all_goals first | exact fread_isNewRecord.trans (same.symm.trans (kept _)) |
    exact same.symm.trans (kept _)

theorem moveNext_isNewRecord (stored : self.isNewRecord = false) :
    (self.moveNext t).2.isNewRecord = false := by
  rw [moveNext]
  split_ifs
  · exact stored
  · exact fread_isNewRecord

theorem movePrev_isNewRecord (stored : self.isNewRecord = false) :
    (self.movePrev t).2.isNewRecord = false := by
  have kept := @fseek_isNewRecord R self (self.pos - 2)
  unfold movePrev
  generalize self.fseek (self.pos - 2) = step at kept
  obtain ⟨moved, back⟩ := step
  split_ifs
  · exact stored
  · cases moved
    · exact (fseek_isNewRecord 0).trans (kept.trans stored)
    · exact fread_isNewRecord.trans (kept.trans stored)

theorem moveLast_isNewRecord (stored : self.isNewRecord = false) :
    (self.moveLast t).2.isNewRecord = false := by
  rw [moveLast]
  split_ifs
  · exact stored
  · exact seek_isNewRecord .end (-1)

theorem searchLoop_isNewRecord (field : R → Nat) (aValue fuel low hi : Nat)
    (stored : self.isNewRecord = false) :
    (searchLoop t field aValue fuel low hi self).2.isNewRecord = false := by
  induction fuel generalizing low hi self with
  | zero => exact stored
  | succ fuel ih =>
    have probed := @seek_isNewRecord R t self .set (BinarySearch.middle low hi)
    rw [searchLoop]
    dsimp only
    split_ifs
    · exact probed
    · exact ih _ _ probed
    · exact ih _ _ probed
    · exact stored

theorem binarySearch_isNewRecord (field : R → Nat) (aValue : Nat)
    (stored : self.isNewRecord = false) :
    (self.binarySearch t field aValue).2.isNewRecord = false := by
  unfold binarySearch
  show (if t.records.length = 0 then (false, (self.getRecordCount t).2) else
    searchLoop t field aValue t.records.length 0 t.records.length
      (self.getRecordCount t).2).2.isNewRecord = false
  split_ifs
  · exact stored
  · exact searchLoop_isNewRecord field aValue _ _ _ stored

end RecordSet

section append

variable {R : Type} (schema : Schema R) (t : Table R)

/-- The record that reaches the file when `r` is saved as new. -/
def Table.written (r : R) : R :=
  match schema.autoIncField with
  | some (_, write) => write t.nextAutoInc r
  | none => r

/-- The table after `r` is saved as new. -/
def Table.append (r : R) : Table R :=
  { records := t.records ++ [t.written schema r]
    autoIncValue := if schema.autoIncField.isSome then t.nextAutoInc else t.autoIncValue }

namespace RecordSet

variable {t} {self : RecordSet R}

theorem append_eq (dirty : self.isDirty = true)
    (atEnd : self.feof = true → self.pos = t.records.length) :
    (self.append schema t).2.1 = { t with
      autoIncValue := if schema.autoIncField.isSome then t.nextAutoInc else t.autoIncValue } ∧
    (self.append schema t).2.2 =
      { self with pos := t.records.length, buffer := t.written schema self.buffer } := by
  -- either way the position is the end of the file
  have seek : (if self.feof = true then self else (self.fseek t.records.length).2) =
      { self with pos := t.records.length } := by
    cases hf : self.feof with
    | false => rw [if_neg (by simp), fseek_of_eq rfl]
    | true => rw [if_pos rfl, ← atEnd hf, ← hf]
  rw [append, seek]
  cases hauto : schema.autoIncField with
  | none => simp [Table.written, hauto]
  | some field => simp [Table.written, hauto, setRecordBuffer, dirty]

theorem fwrite_end (h : self.pos = t.records.length) :
    self.fwrite schema t =
      ({ t with records := t.records ++ [self.buffer] }, { self with pos := self.pos + 1 }) := by
  simp [fwrite, h]

theorem save_new (r : R) (atEnd : self.feof = true → self.pos = t.records.length) :
    let saved := ((self.add schema).setRecordBuffer r).save schema t
    saved.2.1 = t.append schema r ∧ saved.2.2.pos = t.records.length + 1 ∧
      saved.2.2.buffer = t.written schema r ∧ saved.2.2.isNewRecord = false := by
  intro saved
  obtain ⟨table, handle⟩ := append_eq schema
    (show ((self.add schema).setRecordBuffer r).isDirty = true from rfl) atEnd
  have isNew : ((self.add schema).setRecordBuffer r).isNewRecord = true := rfl
  have dirty : ((self.add schema).setRecordBuffer r).isDirty = true := rfl
  simp only [saved, save, dirty, isNew, Bool.not_true, Bool.false_eq_true, if_false, if_true,
    table, handle]
  rw [fwrite_end schema rfl]
  simp [Table.append, setRecordBuffer, add]

end RecordSet

variable {t} in
theorem RecordSet.save_current {self : RecordSet R} {k : Nat} {old : R} (r : R)
    (current : self.isNewRecord = false) (hpos : self.pos = k + 1)
    (h : t.records[k]? = some old) :
    let saved := (self.setRecordBuffer r).save schema t
    saved.2.1 = { t with records := t.records.set k r } ∧ saved.2.2.pos = k + 1 ∧
      saved.2.2.buffer = r ∧ saved.2.2.isNewRecord = false := by
  intro saved
  have hlt : k < t.records.length := (List.getElem?_eq_some_iff.1 h).1
  have hset : t.records.set k r = t.records.take k ++ [r] ++ t.records.drop (k + 1) := by
    rw [set_eq_take_append_cons_drop, if_pos hlt]
    simp
  have back : (self.setRecordBuffer r).fseek ((self.setRecordBuffer r).pos - 1) =
      (true, { self.setRecordBuffer r with pos := k, feof := false }) :=
    fseek_of_eq (by simp [setRecordBuffer, hpos])
  have isNew : (self.setRecordBuffer r).isNewRecord = false := current
  simp only [saved, save, update, back, isNew, fwrite, hset]
  simp [setRecordBuffer, Nat.sub_eq_zero_of_le (Nat.le_of_lt hlt)]

end append

end CimArm
