import CimArm.Dao.SafeBoxRecordSet
import Mathlib.Data.List.Basic

/-!
# Loading a table of the safe box

A table of the safe box lives in a memory buffer, which `reloadAllRecords` fills from the
board the first time the table is opened: it reads chunks of as many rows as an answer of the
board can carry, and counts rows up to the first one that is all zeros.

The number of rows of a chunk is cut down for the last chunk by comparing the handle's row,
which is before the first at that time, where the rows counted so far are meant.  So the last
chunk is as long as the others.

* `reloadAllRecords_terminates`: the load ends, wherever the handle stands.
* `reloadAllRecords_iff`: when it counts the rows before the first empty one and stays inside
  the buffer.
-/

namespace CimArm

open List

/-- How much an answer of the board can carry. -/
def MAX_DATA_SIZE : Nat := 248

/-- The sizes of a table of the safe box.  A record is a whole number of units, and a read of
more units than an answer carries is only put together right when a unit is a byte. -/
structure BoxLayout : Type where
  recordSize : Nat
  maxRows : Nat
  unitSize : Nat
  filled : 0 < recordSize
  whole : unitSize ∣ recordSize
  pieces : unitSize = 1 ∨ recordSize / unitSize ≤ MAX_DATA_SIZE

/-- What the board answers to a read: a failure, or a number of units with their bytes. -/
inductive BoardAnswer : Type
  | failure
  | success (count : Nat) (data : Nat → UInt8)

/-- The table on the board, counted in bytes from its first row, and what the board answers to
a read that goes past the last row: the tables of the configuration lie in one file, so it
may well be the rows of the next table. -/
structure BoardFile (g : BoxLayout) : Type where
  contents : Nat → UInt8
  beyond : Nat → Nat → BoardAnswer

/-- The state of a load: the memory from the start of the table buffer on, the ranges of it
that were read or written, where the board reads next, and what the table knows. -/
structure BoxLoad : Type where
  memory : Nat → UInt8
  accesses : List (Nat × Nat)
  position : Nat
  recordCount : Nat
  autoIncValue : Nat

/-- How the load ends. -/
inductive LoadOutcome : Type
  | returned (self : SafeBoxRecordSet (List UInt8)) | raised

namespace BoxLayout

variable (g : BoxLayout)

/-- The bytes of the table buffer. -/
def bufferSize : Nat := g.maxRows * g.recordSize

/-- The units of a record. -/
def units : Nat := g.recordSize / g.unitSize

/-- The rows the load reads at a time. -/
def rowsToRead : Nat :=
  min (if g.recordSize > MAX_DATA_SIZE then 1 else MAX_DATA_SIZE / g.recordSize) g.maxRows

end BoxLayout

/-- The bytes of a record that starts at an offset. -/
def recordAt (memory : Nat → UInt8) (recordSize offset : Nat) : List UInt8 :=
  (List.range recordSize).map fun i => memory (offset + i)

/-- How many bytes are looked at to find out whether a record is all zeros. -/
def examined (record : List UInt8) : Nat :=
  min ((record.takeWhile (· = 0)).length + 1) record.length

def isEmptyRecord (record : List UInt8) : Bool := record.all (· = 0)

namespace BoardFile

variable {g : BoxLayout} (file : BoardFile g)

/-- The board answers a read of some units. -/
def answer (position units : Nat) : BoardAnswer :=
  if position + units * g.unitSize ≤ g.bufferSize then
    .success units fun j => file.contents (position + j)
  else file.beyond position units

/-- The record at a row, as it is on the board. -/
def row (k : Nat) : List UInt8 := recordAt file.contents g.recordSize (k * g.recordSize)

/-- The row of the first record that is all zeros, or the maximum number of rows. -/
def firstEmpty : Nat := (List.range g.maxRows).findIdx fun k => isEmptyRecord (file.row k)

end BoardFile

namespace BoxLoad

variable (s : BoxLoad)

/-- Bytes copied to a place in memory. -/
def write (offset size : Nat) (data : Nat → UInt8) : BoxLoad :=
  { s with
    memory := fun p => if offset ≤ p ∧ p < offset + size then data (p - offset) else s.memory p
    accesses := (offset, size) :: s.accesses }

/-- Bytes read from a place in memory. -/
def read (offset size : Nat) : BoxLoad := { s with accesses := (offset, size) :: s.accesses }

/-- Every access was inside the table buffer. -/
def Inside (g : BoxLayout) : Prop := ∀ a ∈ s.accesses, a.1 + a.2 ≤ g.bufferSize

end BoxLoad

section

variable {g : BoxLayout} (file : BoardFile g)

/-- `fsRead`: the pieces of a read, each of as many units as an answer carries.  `buf` is where
the first goes; the next ones go behind it as if a unit was a byte.  `none` is a failure. -/
def fsRead (buf left nRead n : Nat) (s : BoxLoad) : Option Nat × BoxLoad :=
  if left > 0 then
    let nToRead := min left MAX_DATA_SIZE
    match file.answer s.position nToRead with
    | .failure => (none, s)
    | .success count data =>
      let s := s.write (buf + nRead) (nToRead * g.unitSize) data
      fsRead buf (left - nToRead) (nRead + nToRead) (n + count)
        { s with position := s.position + nToRead * g.unitSize }
  else (some n, s)
termination_by left
decreasing_by
  simp only [MAX_DATA_SIZE]
  omega

/-- The rows of a chunk are looked at up to the first empty one: whether the last one looked at
was empty, and the rows counted. -/
def scanChunk (g : BoxLayout) (bufRow : Nat) :
    Nat → Bool → Nat → BoxLoad → Bool × Nat × BoxLoad
  | 0, isEmpty, recordCount, s => (isEmpty, recordCount, s)
  | left + 1, _, recordCount, s =>
    let record := recordAt s.memory g.recordSize bufRow
    let s := s.read bufRow (examined record)
    if isEmptyRecord record then (true, recordCount, s)
    else scanChunk g (bufRow + g.recordSize) left false (recordCount + 1) s

/-- The load loop.  `none` is running out of fuel, and a `none` inside a failure. -/
def reloadLoop (currentRow : Int) :
    Nat → Int → Bool → Nat → BoxLoad → Option (Option Nat × BoxLoad)
  | 0, _, _, _, _ => none
  | fuel + 1, rowsToRead, isEmpty, recordCount, s =>
    if recordCount < g.maxRows then
      let buf := recordCount * g.recordSize
      -- the row of the handle stands where the rows counted are meant
      let rowsToRead :=
        if currentRow + rowsToRead > g.maxRows then g.maxRows - currentRow else rowsToRead
      match fsRead file buf (rowsToRead * g.units).toNat 0 0 s with
      | (none, s) => some (none, s)
      | (some qty, s) =>
        if (qty : Int) ≠ rowsToRead * g.units then some (none, s)
        else
          let scanned := scanChunk g buf rowsToRead.toNat isEmpty recordCount s
          if scanned.1 then some (some scanned.2.1, scanned.2.2)
          else reloadLoop currentRow fuel rowsToRead scanned.1 scanned.2.1 scanned.2.2
    else some (some recordCount, s)

/-- The last record's AUTOINC field becomes the table's auto-increment value; a table may have
no such field. -/
def loadAutoIncValue (g : BoxLayout) (autoIncField : Option (List UInt8 → Nat))
    (self : SafeBoxRecordSet (List UInt8)) (s : BoxLoad) :
    SafeBoxRecordSet (List UInt8) × BoxLoad :=
  match autoIncField with
  | none => (self, { s with autoIncValue := 0 })
  | some value =>
    if s.recordCount = 0 then (self, s)
    else
      let offset := (s.recordCount - 1) * g.recordSize
      let record := recordAt s.memory g.recordSize offset
      let s := s.read offset g.recordSize
      (⟨s.recordCount - 1, record⟩, { s with autoIncValue := value record })

/-- `reloadAllRecords`, from the table's first row on the board on.  No iteration but the last
counts no row, so the fuel is more than enough (`reloadAllRecords_terminates`). -/
def reloadAllRecords (autoIncField : Option (List UInt8 → Nat))
    (self : SafeBoxRecordSet (List UInt8)) (s : BoxLoad) : Option (LoadOutcome × BoxLoad) :=
  match reloadLoop file self.currentRow (g.maxRows + 1) g.rowsToRead true 0
      { s with position := 0 } with
  | none => none
  | some (none, s) => some (.raised, s)
  | some (some recordCount, s) =>
    let loaded := loadAutoIncValue g autoIncField self { s with recordCount := recordCount }
    some (.returned loaded.1.moveBeforeFirst.2, loaded.2)

end

/-! ## The sizes -/

namespace BoxLayout

variable (g : BoxLayout)

theorem unitSize_pos : 0 < g.unitSize := Nat.pos_of_dvd_of_pos g.whole g.filled

theorem units_mul : g.units * g.unitSize = g.recordSize := Nat.div_mul_cancel g.whole

theorem units_pos : 0 < g.units :=
  Nat.div_pos (Nat.le_of_dvd g.filled g.whole) g.unitSize_pos

theorem units_le : g.units ≤ g.recordSize := Nat.div_le_self _ _

theorem rowsToRead_le : g.rowsToRead ≤ g.maxRows := Nat.min_le_right _ _

theorem rowsToRead_unclamped : ¬ (-1 + (g.rowsToRead : Int) > g.maxRows) := by
  have := g.rowsToRead_le
  omega

theorem chunk_bytes : g.rowsToRead * g.units * g.unitSize = g.rowsToRead * g.recordSize := by
  rw [Nat.mul_assoc, g.units_mul]

theorem chunk_units : ((g.rowsToRead : Int) * g.units).toNat = g.rowsToRead * g.units := by
  rw [← Int.natCast_mul]
  exact Int.toNat_natCast _

theorem rowsToRead_pos (rows : 0 < g.maxRows) : 0 < g.rowsToRead := by
  rw [rowsToRead, Nat.lt_min]
  refine ⟨?_, rows⟩
  split
  · exact Nat.one_pos
  · exact Nat.div_pos (by omega) g.filled

theorem rowsToRead_fits : g.rowsToRead ≤ 1 ∨ g.rowsToRead * g.recordSize ≤ MAX_DATA_SIZE := by
  rw [rowsToRead]
  split
  · exact .inl (Nat.min_le_left _ _)
  · refine .inr (Nat.le_trans (Nat.mul_le_mul_right _ (Nat.min_le_left _ _)) ?_)
    exact Nat.div_mul_le_self _ _

theorem chunk_pieces : g.unitSize = 1 ∨ g.rowsToRead * g.units ≤ MAX_DATA_SIZE := by
  rcases g.pieces with byte | pieces
  · exact .inl byte
  refine .inr ?_
  rcases g.rowsToRead_fits with one | fits
  · calc g.rowsToRead * g.units ≤ 1 * g.units := Nat.mul_le_mul_right _ one
      _ ≤ MAX_DATA_SIZE := by rw [Nat.one_mul]; exact pieces
  · exact Nat.le_trans (Nat.mul_le_mul_left _ g.units_le) fits

end BoxLayout

/-! ## Reading a chunk -/

section

variable {g : BoxLayout} {file : BoardFile g}

/-- What `fsRead` does to the state of a load: the bytes of the board are at `buf`, the rest of
the memory is as it was, and nothing outside was touched. -/
structure FilledFrom (file : BoardFile g) (buf size : Nat) (s s' : BoxLoad) : Prop where
  filled : ∀ p, buf ≤ p → p < buf + size → s'.memory p = file.contents (s.position + (p - buf))
  kept : ∀ p, ¬ (buf ≤ p ∧ p < buf + size) → s'.memory p = s.memory p
  accesses : ∀ a ∈ s'.accesses, a ∈ s.accesses ∨ a.1 + a.2 ≤ buf + size
  position : s'.position = s.position + size

theorem fsRead_nil (buf nRead n : Nat) (s : BoxLoad) :
    fsRead file buf 0 nRead n s = (some n, s) := by
  rw [fsRead, if_neg (Nat.lt_irrefl 0)]

theorem fsRead_one {left : Nat} (some_left : 0 < left) (fits : left ≤ MAX_DATA_SIZE)
    (buf nRead n : Nat) (s : BoxLoad) :
    fsRead file buf left nRead n s =
      match file.answer s.position left with
      | .failure => (none, s)
      | .success count data =>
        (some (n + count),
          { s.write (buf + nRead) (left * g.unitSize) data with
            position := s.position + left * g.unitSize }) := by
  rw [fsRead, if_pos some_left]
  simp only [Nat.min_eq_left fits]
  cases file.answer s.position left with
  | failure => rfl
  | success count data => simp only [Nat.sub_self, fsRead_nil]; rfl

theorem FilledFrom.write (file : BoardFile g) (buf size : Nat) (s : BoxLoad) :
    FilledFrom file buf size s
      { s.write buf size fun j => file.contents (s.position + j) with
        position := s.position + size } where
  filled p low high := if_pos ⟨low, high⟩
  kept p outside := if_neg outside
  accesses a ha := by
    rcases mem_cons.1 ha with rfl | old
    · exact .inr (Nat.le_refl _)
    · exact .inl old
  position := rfl

theorem FilledFrom.append {buf size more : Nat} {s s' s'' : BoxLoad}
    (first : FilledFrom file buf size s s') (second : FilledFrom file (buf + size) more s' s'') :
    FilledFrom file buf (size + more) s s'' where
  filled p low high := by
    rcases Nat.lt_or_ge p (buf + size) with near | far
    · rw [second.kept p (by omega), first.filled p low near]
    · rw [second.filled p far (by omega), first.position]
      congr 1
      omega
  kept p outside := by
    rw [second.kept p (by omega), first.kept p (by omega)]
  accesses a ha := by
    rcases second.accesses a ha with old | bounded
    · exact (first.accesses a old).imp_right fun bounded => by omega
    · exact .inr (by omega)
  position := by rw [second.position, first.position, Nat.add_assoc]

theorem fsRead_bytes (byte : g.unitSize = 1) (buf : Nat) :
    ∀ (left nRead n : Nat) (s : BoxLoad), s.position + left ≤ g.bufferSize →
      ∃ s', fsRead file buf left nRead n s = (some (n + left), s') ∧
        FilledFrom file (buf + nRead) left s s' := by
  intro left
  induction left using Nat.strongRecOn with
  | _ left ih =>
    intro nRead n s inside
    rcases Nat.eq_zero_or_pos left with rfl | some_left
    · refine ⟨s, fsRead_nil buf nRead n s, fun p low high => by omega, fun p _ => rfl, ?_, rfl⟩
      exact fun a ha => .inl ha
    · have size : 0 < MAX_DATA_SIZE := by decide
      obtain ⟨k, piece⟩ : ∃ k, k = min left MAX_DATA_SIZE := ⟨_, rfl⟩
      have answered : file.answer s.position k =
          .success k fun j => file.contents (s.position + j) := by
        rw [BoardFile.answer, if_pos (by rw [byte]; omega)]
      rcases ih (left - k) (by omega) (nRead + k) (n + k)
        { s.write (buf + nRead) k fun j => file.contents (s.position + j) with
          position := s.position + k }
        (by simp only; omega) with ⟨s', read, rest⟩
      refine ⟨s', ?_, ?_⟩
      · rw [fsRead, if_pos some_left]
        simp only [← piece, answered, byte, Nat.mul_one]
        rw [show n + left = n + k + (left - k) by omega]
        exact read
      · have both := (FilledFrom.write file (buf + nRead) k s).append
          (by rw [Nat.add_assoc]; exact rest)
        rwa [Nat.add_sub_cancel' (by omega)] at both

theorem fsRead_filled {buf units : Nat} (pieces : g.unitSize = 1 ∨ units ≤ MAX_DATA_SIZE)
    {s : BoxLoad} (inside : s.position + units * g.unitSize ≤ g.bufferSize) :
    ∃ s', fsRead file buf units 0 0 s = (some units, s') ∧
      FilledFrom file buf (units * g.unitSize) s s' := by
  rcases pieces with byte | fits
  · rw [byte, Nat.mul_one] at inside ⊢
    rcases fsRead_bytes byte buf units 0 0 s inside with ⟨s', read, filled⟩
    exact ⟨s', by rw [read, Nat.zero_add], filled⟩
  · rcases Nat.eq_zero_or_pos units with rfl | some_units
    · refine ⟨s, fsRead_nil buf 0 0 s, fun p low high => by omega, fun p _ => rfl,
        fun a ha => .inl ha, by omega⟩
    · refine ⟨_, ?_, FilledFrom.write file buf (units * g.unitSize) s⟩
      rw [fsRead_one some_units fits, BoardFile.answer, if_pos inside]
      simp

/-! ## Scanning a chunk -/

theorem examined_le (record : List UInt8) : examined record ≤ record.length :=
  Nat.min_le_right _ _

theorem length_recordAt (memory : Nat → UInt8) (recordSize offset : Nat) :
    (recordAt memory recordSize offset).length = recordSize := by
  simp [recordAt]

/-- Memory that holds the rows of the board from a row to another. -/
def HoldsRows (file : BoardFile g) (memory : Nat → UInt8) (first last : Nat) : Prop :=
  ∀ k, first ≤ k → k < last → recordAt memory g.recordSize (k * g.recordSize) = file.row k

theorem FilledFrom.holds {first rows : Nat} {s s' : BoxLoad}
    (filled : FilledFrom file (first * g.recordSize) (rows * g.recordSize) s s')
    (position : s.position = first * g.recordSize) :
    HoldsRows file s'.memory first (first + rows) := by
  intro k low high
  have start : first * g.recordSize ≤ k * g.recordSize := Nat.mul_le_mul_right _ low
  have finish : (k + 1) * g.recordSize ≤ first * g.recordSize + rows * g.recordSize := by
    rw [← Nat.add_mul]
    exact Nat.mul_le_mul_right _ high
  rw [Nat.succ_mul] at finish
  apply map_congr_left
  intro i hi
  rw [mem_range] at hi
  rw [filled.filled _ (by omega) (by omega), position]
  congr 1
  omega

/-- Looking at rows changes nothing but the accesses, which stay in the rows. -/
structure Looked (g : BoxLayout) (last : Nat) (s s' : BoxLoad) : Prop where
  memory : s'.memory = s.memory
  position : s'.position = s.position
  accesses : ∀ a ∈ s'.accesses, a ∈ s.accesses ∨ a.1 + a.2 ≤ last * g.recordSize

theorem Looked.refl (last : Nat) (s : BoxLoad) : Looked g last s s :=
  ⟨rfl, rfl, fun _ ha => .inl ha⟩

theorem Looked.row {k last : Nat} {s s' : BoxLoad} (below : k < last)
    (rest : Looked g last
      (s.read (k * g.recordSize) (examined (recordAt s.memory g.recordSize (k * g.recordSize))))
      s') :
    Looked g last s s' := by
  refine ⟨rest.memory, rest.position, fun a ha => ?_⟩
  rcases rest.accesses a ha with here | bounded
  · rcases mem_cons.1 here with rfl | old
    · have size := examined_le (recordAt s.memory g.recordSize (k * g.recordSize))
      rw [length_recordAt] at size
      have inside : (k + 1) * g.recordSize ≤ last * g.recordSize :=
        Nat.mul_le_mul_right _ below
      rw [Nat.succ_mul] at inside
      exact .inr (by simp only; omega)
    · exact .inl old
  · exact .inr bounded

theorem scanChunk_full (left : Nat) :
    ∀ (k : Nat) (isEmpty : Bool) (s : BoxLoad), HoldsRows file s.memory k (k + left) →
      (∀ j, k ≤ j → j < k + left → isEmptyRecord (file.row j) = false) →
      ∃ s', scanChunk g (k * g.recordSize) left isEmpty k s =
          (decide (left = 0) && isEmpty, k + left, s') ∧ Looked g (k + left) s s' := by
  induction left with
  | zero =>
    intro k isEmpty s _ _
    exact ⟨s, by simp [scanChunk], .refl _ s⟩
  | succ left ih =>
    intro k isEmpty s holds full
    have here : isEmptyRecord (recordAt s.memory g.recordSize (k * g.recordSize)) = false := by
      rw [holds k (Nat.le_refl _) (by omega)]
      exact full k (Nat.le_refl _) (by omega)
    rcases ih (k + 1) false
      (s.read (k * g.recordSize) (examined (recordAt s.memory g.recordSize (k * g.recordSize))))
      (fun j low high => holds j (by omega) (by omega))
      (fun j low high => full j (by omega) (by omega)) with ⟨s', scanned, looked⟩
    rw [Nat.add_right_comm, Nat.add_assoc] at scanned looked
    refine ⟨s', ?_, looked.row (by omega)⟩
    rw [scanChunk]
    simp only [here, Bool.false_eq_true, if_false]
    rw [← Nat.succ_mul, scanned]
    simp

theorem scanChunk_found {last : Nat} (left : Nat) :
    ∀ (k : Nat) (isEmpty : Bool) (s : BoxLoad) (j : Nat), k + left = last →
      HoldsRows file s.memory k last → k ≤ j → j < last →
      isEmptyRecord (file.row j) = true →
      (∀ i, k ≤ i → i < j → isEmptyRecord (file.row i) = false) →
      ∃ s', scanChunk g (k * g.recordSize) left isEmpty k s = (true, j, s') ∧
        Looked g last s s' := by
  induction left with
  | zero =>
    intro k isEmpty s j size _ low high
    omega
  | succ left ih =>
    intro k isEmpty s j size holds low high empty before
    have here := holds k (Nat.le_refl _) (by omega)
    rcases Nat.lt_or_eq_of_le low with more | rfl
    · have full : isEmptyRecord (recordAt s.memory g.recordSize (k * g.recordSize)) = false := by
        rw [here]
        exact before k (Nat.le_refl _) more
      rcases ih (k + 1) false
        (s.read (k * g.recordSize) (examined (recordAt s.memory g.recordSize (k * g.recordSize))))
        j (by omega) (fun i low high => holds i (by omega) high) more high empty
        (fun i low high => before i (by omega) high) with ⟨s', scanned, looked⟩
      refine ⟨s', ?_, looked.row (by omega)⟩
      rw [scanChunk]
      simp only [full, Bool.false_eq_true, if_false]
      rw [← Nat.succ_mul, scanned]
    · refine ⟨_, ?_, (Looked.refl last _).row high⟩
      rw [scanChunk]
      simp only [here, empty, if_true]

theorem scanChunk_count (g : BoxLayout) (bufRow left : Nat) (isEmpty : Bool) (k : Nat)
    (s : BoxLoad) (more : (scanChunk g bufRow left isEmpty k s).1 = false) :
    (scanChunk g bufRow left isEmpty k s).2.1 = k + left := by
  induction left generalizing bufRow isEmpty k s with
  | zero => rfl
  | succ left ih =>
    rw [scanChunk] at more ⊢
    split at more
    · cases more
    · rename_i full
      rw [if_neg full, ih _ _ _ _ more]
      omega

theorem scanChunk_accesses (g : BoxLayout) (bufRow left : Nat) (isEmpty : Bool) (k : Nat)
    (s : BoxLoad) {a : Nat × Nat} (ha : a ∈ s.accesses) :
    a ∈ (scanChunk g bufRow left isEmpty k s).2.2.accesses := by
  induction left generalizing bufRow isEmpty k s with
  | zero => exact ha
  | succ left ih =>
    rw [scanChunk]
    split
    · exact mem_cons_of_mem _ ha
    · exact ih _ _ _ _ (mem_cons_of_mem _ ha)

end

/-! ## The loop -/

section

variable {g : BoxLayout} {file : BoardFile g}

theorem reloadLoop_terminates (currentRow : Int) (fuel : Nat) :
    ∀ (rowsToRead : Int) (isEmpty : Bool) (recordCount : Nat) (s : BoxLoad),
      0 < fuel → g.maxRows < recordCount + fuel →
      (isEmpty = true ∨ 0 < rowsToRead ∧ currentRow + rowsToRead ≤ g.maxRows) →
      reloadLoop file currentRow fuel rowsToRead isEmpty recordCount s ≠ none := by
  induction fuel with
  | zero => exact fun _ _ _ _ fueled => absurd fueled (Nat.lt_irrefl 0)
  | succ fuel ih =>
    intro rowsToRead isEmpty recordCount s _ enough going
    by_cases more : recordCount < g.maxRows
    · rw [reloadLoop, if_pos more]
      -- the rows of this iteration, which the next one keeps
      generalize clamped : (if currentRow + rowsToRead > g.maxRows then
        (g.maxRows : Int) - currentRow else rowsToRead) = rows
      have kept : currentRow + rows ≤ g.maxRows := by
        split at clamped <;> omega
      have started : isEmpty = true ∨ 0 < rows := by
        rcases going with start | ⟨some_rows, inside⟩
        · exact .inl start
        · rw [if_neg (by omega)] at clamped
          exact .inr (by omega)
      dsimp only
      rcases fsRead file (recordCount * g.recordSize) (rows * g.units).toNat 0 0 s with
        ⟨_ | qty, s⟩
      · simp
      simp only
      split
      · simp
      split
      · simp
      · rename_i scanned
        have full := Bool.eq_false_iff.2 scanned
        have counted := scanChunk_count _ _ _ _ _ _ full
        have some_rows : 0 < rows := by
          rcases started with start | some_rows
          · by_contra no_rows
            rw [Int.toNat_of_nonpos (by omega), start] at full
            cases full
          · exact some_rows
        exact ih _ _ _ _ (by omega) (by omega) (.inr ⟨some_rows, kept⟩)
    · rw [reloadLoop, if_neg more]
      simp

variable {fuel k : Nat} {isEmpty : Bool}

/-- One iteration of a handle before the first row, when the chunk ends inside the table. -/
theorem reloadLoop_chunk {s : BoxLoad} (position : s.position = k * g.recordSize)
    (more : k < g.maxRows) (inside : k + g.rowsToRead ≤ g.maxRows) :
    ∃ s', FilledFrom file (k * g.recordSize) (g.rowsToRead * g.recordSize) s s' ∧
      reloadLoop file (-1) (fuel + 1) g.rowsToRead isEmpty k s =
        let scanned := scanChunk g (k * g.recordSize) g.rowsToRead isEmpty k s'
        if scanned.1 then some (some scanned.2.1, scanned.2.2)
        else reloadLoop file (-1) fuel g.rowsToRead scanned.1 scanned.2.1 scanned.2.2 := by
  have size := g.chunk_bytes
  have on_board : s.position + g.rowsToRead * g.units * g.unitSize ≤ g.bufferSize := by
    rw [size, position, ← Nat.add_mul]
    exact Nat.mul_le_mul_right _ inside
  rcases fsRead_filled g.chunk_pieces on_board with
    ⟨s', read, filled⟩
  rw [size] at filled
  refine ⟨s', filled, ?_⟩
  rw [reloadLoop, if_pos more]
  simp only [if_neg g.rowsToRead_unclamped, g.chunk_units, read, Int.toNat_natCast]
  rw [if_neg (by simp)]

theorem Looked.inside {last : Nat} {s s' s'' : BoxLoad} (looked : Looked g last s' s'')
    (below : last ≤ g.maxRows) {first size : Nat}
    (filled : FilledFrom file first size s s') (within : first + size ≤ last * g.recordSize)
    (start : s.Inside g) : s''.Inside g := by
  have whole : last * g.recordSize ≤ g.bufferSize := Nat.mul_le_mul_right _ below
  intro a ha
  rcases looked.accesses a ha with before | bounded
  · rcases filled.accesses a before with old | bounded
    · exact start a old
    · omega
  · omega

theorem reloadLoop_full {s : BoxLoad} (position : s.position = k * g.recordSize)
    (more : k < g.maxRows) (inside : k + g.rowsToRead ≤ g.maxRows)
    (full : ∀ j, k ≤ j → j < k + g.rowsToRead → isEmptyRecord (file.row j) = false) :
    ∃ s', s'.position = (k + g.rowsToRead) * g.recordSize ∧ (s.Inside g → s'.Inside g) ∧
      reloadLoop file (-1) (fuel + 1) g.rowsToRead isEmpty k s =
        reloadLoop file (-1) fuel g.rowsToRead false (k + g.rowsToRead) s' := by
  rcases reloadLoop_chunk position more inside with
    ⟨s₁, filled, loop⟩
  rcases scanChunk_full g.rowsToRead k isEmpty s₁ (filled.holds position) full with
    ⟨s₂, scanned, looked⟩
  have some_rows : g.rowsToRead ≠ 0 := Nat.ne_of_gt (g.rowsToRead_pos (by omega))
  refine ⟨s₂, ?_, ?_, ?_⟩
  · rw [looked.position, filled.position, position, Nat.add_mul]
  · exact looked.inside inside filled (Nat.le_of_eq (Nat.add_mul ..).symm)
  · rw [loop, scanned]
    simp [some_rows]

theorem reloadLoop_found {j : Nat} {s : BoxLoad} (position : s.position = k * g.recordSize)
    (inside : k + g.rowsToRead ≤ g.maxRows) (low : k ≤ j) (high : j < k + g.rowsToRead)
    (empty : isEmptyRecord (file.row j) = true)
    (before : ∀ i, i < j → isEmptyRecord (file.row i) = false) : ∃ s', (s.Inside g → s'.Inside g) ∧
      reloadLoop file (-1) (fuel + 1) g.rowsToRead isEmpty k s = some (some j, s') := by
  rcases reloadLoop_chunk position (by omega) inside with
    ⟨s₁, filled, loop⟩
  rcases scanChunk_found g.rowsToRead k isEmpty s₁ j rfl (filled.holds position) low high empty
    (fun i _ => before i) with ⟨s₂, scanned, looked⟩
  refine ⟨s₂, looked.inside inside filled (Nat.le_of_eq (Nat.add_mul ..).symm), ?_⟩
  rw [loop, scanned]
  rfl

/-- An iteration whose chunk goes past the last row fails, or has written outside the
buffer. -/
theorem reloadLoop_past {s : BoxLoad} (position : s.position = k * g.recordSize)
    (more : k < g.maxRows) (past : g.maxRows < k + g.rowsToRead) {r : Option Nat × BoxLoad}
    (loop : reloadLoop file (-1) (fuel + 1) g.rowsToRead isEmpty k s = some r) :
    r.1 = none ∨ (k * g.recordSize, g.rowsToRead * g.recordSize) ∈ r.2.accesses := by
  have fits : g.rowsToRead * g.recordSize ≤ MAX_DATA_SIZE :=
    g.rowsToRead_fits.resolve_left (by omega)
  have size := g.chunk_bytes
  have off_board : ¬ s.position + g.rowsToRead * g.units * g.unitSize ≤ g.bufferSize := by
    rw [size, position, ← Nat.add_mul, Nat.not_le]
    exact Nat.mul_lt_mul_of_pos_right past g.filled
  have some_units : 0 < g.rowsToRead * g.units :=
    Nat.mul_pos (g.rowsToRead_pos (by omega)) g.units_pos
  have one := Nat.le_trans (Nat.mul_le_mul_left g.rowsToRead g.units_le) fits
  rw [reloadLoop, if_pos more] at loop
  simp only [if_neg g.rowsToRead_unclamped, g.chunk_units, Int.toNat_natCast,
    fsRead_one some_units one, BoardFile.answer, if_neg off_board] at loop
  cases answered : file.beyond s.position (g.rowsToRead * g.units) with
  | failure =>
    rw [answered] at loop
    cases loop
    exact .inl rfl
  | success count data =>
    rw [answered] at loop
    simp only at loop
    split at loop
    · cases loop
      exact .inl rfl
    have written := scanChunk_accesses g (k * g.recordSize) g.rowsToRead isEmpty k
      { s.write (k * g.recordSize + 0) (g.rowsToRead * g.units * g.unitSize) data with
        position := s.position + g.rowsToRead * g.units * g.unitSize }
      (mem_cons_self ..)
    have counted := scanChunk_count g (k * g.recordSize) g.rowsToRead isEmpty k
      { s.write (k * g.recordSize + 0) (g.rowsToRead * g.units * g.unitSize) data with
        position := s.position + g.rowsToRead * g.units * g.unitSize }
    rw [size, Nat.add_zero] at written counted
    rw [size, Nat.add_zero] at loop
    split at loop
    · cases loop
      exact .inr written
    · rename_i full
      cases fuel with
      | zero => cases loop
      | succ fuel =>
        rw [reloadLoop, if_neg (by rw [counted (Bool.eq_false_iff.2 full)]; omega)] at loop
        cases loop
        exact .inr written

end

/-! ## The load -/

section

variable {g : BoxLayout}

/-- A load that has touched nothing yet. -/
def BoxLoad.start (memory : Nat → UInt8) (recordCount autoIncValue : Nat) : BoxLoad :=
  ⟨memory, [], 0, recordCount, autoIncValue⟩

/-- The load returns, has stayed inside the table buffer, and the table has the records before
the first empty one. -/
def LoadsTable (file : BoardFile g) (autoIncField : Option (List UInt8 → Nat))
    (self : SafeBoxRecordSet (List UInt8)) (s : BoxLoad) : Prop :=
  ∃ self' s', reloadAllRecords file autoIncField self s = some (.returned self', s') ∧
    s'.Inside g ∧ s'.recordCount = file.firstEmpty

/-- The chunks end with the table, or the load ends before the last one: the rows are a whole
number of chunks, or one of the rows of the whole chunks is empty. -/
def ChunksFit (file : BoardFile g) : Prop :=
  g.rowsToRead ∣ g.maxRows ∨
    ∃ k < g.maxRows / g.rowsToRead * g.rowsToRead, isEmptyRecord (file.row k) = true

instance (file : BoardFile g) : Decidable (ChunksFit file) := inferInstanceAs (Decidable (_ ∨ _))

variable {file : BoardFile g}

theorem BoardFile.firstEmpty_le (file : BoardFile g) : file.firstEmpty ≤ g.maxRows := by
  have := @findIdx_le_length _ (fun k => isEmptyRecord (file.row k)) (List.range g.maxRows)
  simpa [firstEmpty] using this

theorem BoardFile.row_firstEmpty (short : file.firstEmpty < g.maxRows) :
    isEmptyRecord (file.row file.firstEmpty) = true := by
  have inside : (List.range g.maxRows).findIdx (fun k => isEmptyRecord (file.row k)) <
      (List.range g.maxRows).length := by
    rwa [length_range]
  have found := findIdx_getElem (w := inside)
  rwa [getElem_range] at found

theorem BoardFile.row_before {k : Nat} (before : k < file.firstEmpty) :
    isEmptyRecord (file.row k) = false := by
  have passed := not_of_lt_findIdx before
  simpa using passed

theorem BoardFile.firstEmpty_le_of_empty {k : Nat} (empty : isEmptyRecord (file.row k) = true) :
    file.firstEmpty ≤ k := by
  by_contra after
  rw [row_before (Nat.lt_of_not_le after)] at empty
  cases empty

theorem ChunksFit.next {m : Nat} (fits : ChunksFit file) (here : m * g.rowsToRead ≤ file.firstEmpty)
    (more : m * g.rowsToRead < g.maxRows) :
    m * g.rowsToRead + g.rowsToRead ≤ g.maxRows := by
  rcases fits with ⟨q, whole⟩ | ⟨k, inside, empty⟩
  · rw [Nat.mul_comm] at whole
    rw [whole] at more ⊢
    rw [← Nat.succ_mul]
    exact Nat.mul_le_mul_right _ (Nat.lt_of_mul_lt_mul_right more)
  · have early : m * g.rowsToRead < g.maxRows / g.rowsToRead * g.rowsToRead :=
      Nat.lt_of_le_of_lt (Nat.le_trans here (BoardFile.firstEmpty_le_of_empty empty)) inside
    rw [← Nat.succ_mul]
    exact Nat.le_trans (Nat.mul_le_mul_right _ (Nat.lt_of_mul_lt_mul_right early))
      (Nat.div_mul_le_self _ _)

theorem reloadLoop_counts (fits : ChunksFit file) (fuel : Nat) :
    ∀ (m : Nat) (isEmpty : Bool) (s : BoxLoad),
      s.position = m * g.rowsToRead * g.recordSize → s.Inside g →
      m * g.rowsToRead ≤ file.firstEmpty → g.maxRows < m * g.rowsToRead + fuel →
      ∃ s', reloadLoop file (-1) fuel g.rowsToRead isEmpty (m * g.rowsToRead) s =
        some (some file.firstEmpty, s') ∧ s'.Inside g := by
  induction fuel with
  | zero =>
    intro m isEmpty s _ _ here enough
    have := file.firstEmpty_le
    omega
  | succ fuel ih =>
    intro m isEmpty s position inside here enough
    rcases Nat.lt_or_ge (m * g.rowsToRead) g.maxRows with more | finish
    · have chunk := fits.next here more
      have some_rows := g.rowsToRead_pos (by omega)
      rcases Nat.lt_or_ge file.firstEmpty (m * g.rowsToRead + g.rowsToRead) with found | full
      · rcases reloadLoop_found position chunk here found
          (BoardFile.row_firstEmpty (by omega)) (fun i => BoardFile.row_before) with
          ⟨s', kept, loop⟩
        exact ⟨s', loop, kept inside⟩
      · rcases @reloadLoop_full _ _ fuel _ _ _ position more chunk
          (fun j _ high => BoardFile.row_before (Nat.lt_of_lt_of_le high full)) with
          ⟨s', moved, kept, loop⟩
        rw [← Nat.succ_mul] at moved loop full
        rcases ih (m + 1) false s' moved (kept inside) full (by rw [Nat.succ_mul]; omega) with
          ⟨s'', rest, safe⟩
        exact ⟨s'', by rw [loop, rest], safe⟩
    · have last := file.firstEmpty_le
      have all : m * g.rowsToRead = file.firstEmpty := by omega
      refine ⟨s, ?_, inside⟩
      rw [reloadLoop, if_neg (by omega), all]

/-- When the last chunk goes past the rows and no row before it is empty, the loop fails or
leaves the buffer. -/
theorem reloadLoop_overruns (partly : ¬ g.rowsToRead ∣ g.maxRows)
    (full : ∀ k < g.maxRows / g.rowsToRead * g.rowsToRead, isEmptyRecord (file.row k) = false)
    {r : Option Nat × BoxLoad} (fuel : Nat) :
    ∀ (m : Nat) (isEmpty : Bool) (s : BoxLoad),
      s.position = m * g.rowsToRead * g.recordSize → m ≤ g.maxRows / g.rowsToRead →
      reloadLoop file (-1) fuel g.rowsToRead isEmpty (m * g.rowsToRead) s = some r →
      r.1 = none ∨ ¬ r.2.Inside g := by
  have split := Nat.div_mul_le_self g.maxRows g.rowsToRead
  have short : g.maxRows / g.rowsToRead * g.rowsToRead < g.maxRows := by
    refine Nat.lt_of_le_of_ne split fun whole => partly ⟨g.maxRows / g.rowsToRead, ?_⟩
    rw [Nat.mul_comm, whole]
  have some_rows := g.rowsToRead_pos (by omega)
  induction fuel with
  | zero => exact fun m isEmpty s _ _ loop => nomatch loop
  | succ fuel ih =>
    intro m isEmpty s position early loop
    have low : m * g.rowsToRead ≤ g.maxRows / g.rowsToRead * g.rowsToRead :=
      Nat.mul_le_mul_right _ early
    rcases Nat.lt_or_eq_of_le early with before | rfl
    · have chunk : (m + 1) * g.rowsToRead ≤ g.maxRows / g.rowsToRead * g.rowsToRead :=
        Nat.mul_le_mul_right _ before
      rw [Nat.succ_mul] at chunk
      rcases reloadLoop_full position (by omega) (by omega)
        (fun j _ high => full j (by omega)) with ⟨s', moved, _, next⟩
      rw [next, ← Nat.succ_mul] at loop
      rw [← Nat.succ_mul] at moved
      exact ih (m + 1) false s' moved before loop
    · have past : g.maxRows < g.maxRows / g.rowsToRead * g.rowsToRead + g.rowsToRead :=
        Nat.lt_div_mul_add some_rows
      refine (reloadLoop_past position short past loop).imp_right fun outside within => ?_
      have bounded := within _ outside
      simp only [← Nat.add_mul, BoxLayout.bufferSize] at bounded
      have := Nat.le_of_mul_le_mul_right bounded g.filled
      omega

theorem loadAutoIncValue_inside {autoIncField : Option (List UInt8 → Nat)}
    {self : SafeBoxRecordSet (List UInt8)} {s : BoxLoad} (inside : s.Inside g)
    (rows : s.recordCount ≤ g.maxRows) :
    (loadAutoIncValue g autoIncField self s).2.Inside g ∧
      (loadAutoIncValue g autoIncField self s).2.recordCount = s.recordCount := by
  cases autoIncField with
  | none => exact ⟨inside, rfl⟩
  | some value =>
    rw [loadAutoIncValue]
    split
    · exact ⟨inside, rfl⟩
    · refine ⟨fun a ha => ?_, rfl⟩
      rcases mem_cons.1 ha with rfl | before
      · have last : (s.recordCount - 1 + 1) * g.recordSize ≤ g.bufferSize :=
          Nat.mul_le_mul_right _ (by omega)
        rwa [Nat.succ_mul] at last
      · exact inside a before

theorem loadAutoIncValue_accesses {autoIncField : Option (List UInt8 → Nat)}
    {self : SafeBoxRecordSet (List UInt8)} {s : BoxLoad} {a : Nat × Nat} (ha : a ∈ s.accesses) :
    a ∈ (loadAutoIncValue g autoIncField self s).2.accesses := by
  cases autoIncField with
  | none => exact ha
  | some value =>
    rw [loadAutoIncValue]
    split
    · exact ha
    · exact mem_cons_of_mem _ ha

theorem reloadAllRecords_terminates (file : BoardFile g)
    (autoIncField : Option (List UInt8 → Nat)) (self : SafeBoxRecordSet (List UInt8))
    (s : BoxLoad) : reloadAllRecords file autoIncField self s ≠ none := by
  have ends := @reloadLoop_terminates g file self.currentRow (g.maxRows + 1) g.rowsToRead
    true 0 { s with position := 0 } (Nat.succ_pos _) (by omega) (.inl rfl)
  rw [reloadAllRecords]
  split
  · rename_i out
    exact absurd out ends
  · simp
  · simp

theorem reloadAllRecords_open (autoIncField : Option (List UInt8 → Nat))
    (allocated : List UInt8) (memory : Nat → UInt8) (recordCount autoIncValue : Nat) :
    reloadAllRecords file autoIncField (.open allocated)
        (.start memory recordCount autoIncValue) =
      (reloadLoop file (-1) (g.maxRows + 1) g.rowsToRead true 0
        (.start memory recordCount autoIncValue)).map fun r =>
          match r.1 with
          | none => (.raised, r.2)
          | some recordCount =>
            let loaded := loadAutoIncValue g autoIncField (.open allocated)
              { r.2 with recordCount := recordCount }
            (.returned loaded.1.moveBeforeFirst.2, loaded.2) := by
  have start : ({ BoxLoad.start memory recordCount autoIncValue with position := 0 } : BoxLoad) =
      .start memory recordCount autoIncValue := rfl
  rw [reloadAllRecords, start, SafeBoxRecordSet.open]
  rcases reloadLoop file (-1) (g.maxRows + 1) g.rowsToRead true 0
    (.start memory recordCount autoIncValue) with _ | ⟨_ | count, s⟩
  · rfl
  · rfl
  · rfl

theorem loadsTable_of_chunksFit (fits : ChunksFit file)
    (autoIncField : Option (List UInt8 → Nat)) (allocated : List UInt8) (memory : Nat → UInt8)
    (recordCount autoIncValue : Nat) :
    LoadsTable file autoIncField (.open allocated)
      (.start memory recordCount autoIncValue) := by
  rcases reloadLoop_counts fits (g.maxRows + 1) 0 true
    (.start memory recordCount autoIncValue) (by simp [BoxLoad.start])
    (fun a ha => absurd ha not_mem_nil) (by omega) (by omega) with ⟨s, loop, inside⟩
  rw [Nat.zero_mul] at loop
  have loaded := @loadAutoIncValue_inside g autoIncField (SafeBoxRecordSet.open allocated)
    { s with recordCount := file.firstEmpty } inside file.firstEmpty_le
  exact ⟨_, _, by rw [reloadAllRecords_open, loop]; rfl, loaded⟩

theorem not_loadsTable (partly : ¬ ChunksFit file)
    (autoIncField : Option (List UInt8 → Nat)) (allocated : List UInt8) (memory : Nat → UInt8)
    (recordCount autoIncValue : Nat) :
    ¬ LoadsTable file autoIncField (.open allocated)
      (.start memory recordCount autoIncValue) := by
  rintro ⟨self', s', loaded, inside, -⟩
  have full : ∀ k < g.maxRows / g.rowsToRead * g.rowsToRead,
      isEmptyRecord (file.row k) = false := by
    intro k below
    by_contra empty
    exact partly (.inr ⟨k, below, Bool.not_eq_false _ ▸ empty⟩)
  rw [reloadAllRecords_open, Option.map_eq_some_iff] at loaded
  obtain ⟨r, loop, loaded⟩ := loaded
  rw [← Nat.zero_mul g.rowsToRead] at loop
  have overruns := reloadLoop_overruns (fun whole => partly (.inl whole)) full (g.maxRows + 1) 0
    true _ (by simp [BoxLoad.start]) (Nat.zero_le _) loop
  rcases r with ⟨_ | count, s⟩
  · cases loaded
  · cases loaded
    rcases overruns with failed | outside
    · cases failed
    · exact outside fun a ha => inside a (loadAutoIncValue_accesses ha)

/-- Loading the table of a handle just opened ends, stays inside the buffer and counts the
records before the first empty one exactly when the chunks fit. -/
theorem reloadAllRecords_iff (file : BoardFile g) (autoIncField : Option (List UInt8 → Nat))
    (allocated : List UInt8) (memory : Nat → UInt8) (recordCount autoIncValue : Nat) :
    LoadsTable file autoIncField (.open allocated) (.start memory recordCount autoIncValue) ↔
      ChunksFit file := by
  constructor
  · intro loads
    by_contra partly
    exact not_loadsTable partly _ _ _ _ _ loads
  · intro fits
    exact loadsTable_of_chunksFit fits _ _ _ _ _

/-- The layout of the table of cash boxes: 100 records of 27 bytes, read nine at a time. -/
def cimCash : BoxLayout := ⟨27, 100, 1, by decide, by decide, .inl rfl⟩

/-- A full table with more records behind it: the last chunk starts at its last row and is
nine rows long. -/
theorem reloadAllRecords_fails :
    ¬ ∀ (g : BoxLayout) (file : BoardFile g) (memory : Nat → UInt8),
      LoadsTable file none (.open []) (.start memory 0 0) := by
  intro loads
  refine not_loadsTable ?_ none [] (fun _ => 0) 0 0
    (loads cimCash ⟨fun _ => 1, fun _ n => .success n fun _ => 1⟩ fun _ => 0)
  decide +kernel

end

end CimArm
