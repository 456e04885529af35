import CimArm.Db.RecordSet
import CimArm.Lib.Trace

/-!
# The record set of the safe box

`SafeBoxRecordSet` is a handle on a table kept in a memory buffer.  It answers the
interface of `RecordSet`, with a row number where the other has a file position: the
row is `-1` before the first record, where `RecordSet` is at position `0`, and the
row of the current record is one less than the position after it.  A movement copies
the row it reaches to the row buffer, which the getters read; `moveFirst` does not.

The buffer is plain memory, so a row number outside the records still reads
something: the table carries what lies there.

* `run_agrees`: over every sequence of movements the two record sets return the same
  and expose the same current record, as long as no step is one of those the two
  classes handle apart (`HandledAlike`).
-/

namespace CimArm

open List

/-- A table in the memory of the safe box, and what lies at the row numbers that have
no record. -/
structure SafeBoxTable (R : Type) : Type extends Table R where
  outside : Int → R

/-- An open handle on a table of the safe box. -/
structure SafeBoxRecordSet (R : Type) : Type where
  currentRow : Int
  currentRowBuf : R

/-- The cursor movements of the record set interface. -/
inductive Move
  | moveFirst | moveBeforeFirst | moveNext | movePrev | moveLast
  | seek (anOffset : Int)

/-- What a movement returns to its caller; `seek` returns nothing or raises
`INVALID_SEEK_EX`. -/
inductive MoveResult
  | bool (b : Bool) | void | invalidSeek
  deriving DecidableEq

/-- The record at a row of the buffer. -/
def SafeBoxTable.row {R : Type} (t : SafeBoxTable R) (k : Int) : R :=
  if k < 0 then t.outside k else t.records[k.toNat]?.getD (t.outside k)

namespace RecordSet

variable {R : Type} (t : Table R) (self : RecordSet R)

/-- The record the getters read; before the first they raise `NO_CURRENT_RECORD_EX`. -/
def getRecord : Option R :=
  if self.pos = 0 ∧ self.isNewRecord = false then none else some self.buffer

/-- One movement. -/
def move : Move → MoveResult × RecordSet R
  | .moveFirst => let (b, self) := self.moveFirst t; (.bool b, self)
  | .moveBeforeFirst => let (b, self) := self.moveBeforeFirst t; (.bool b, self)
  | .moveNext => let (b, self) := self.moveNext t; (.bool b, self)
  | .movePrev => let (b, self) := self.movePrev t; (.bool b, self)
  | .moveLast => let (b, self) := self.moveLast t; (.bool b, self)
  | .seek anOffset => (.void, self.seek t .set anOffset)

end RecordSet

namespace SafeBoxRecordSet

variable {R : Type} (t : SafeBoxTable R) (self : SafeBoxRecordSet R)

/-- A handle just opened; its row buffer is memory as allocated. -/
def «open» (allocated : R) : SafeBoxRecordSet R := ⟨-1, allocated⟩

def getRecordCount : Nat := t.records.length

/-- `aRow > [self getRecordCount]`: the count is unsigned, so the comparison takes a
negative row for a huge one. -/
def isPastCount (aRow : Int) : Prop := aRow < 0 ∨ aRow > getRecordCount t

instance (aRow : Int) : Decidable (isPastCount t aRow) :=
  inferInstanceAs (Decidable (_ ∨ _))

/-- Copy the current row to the row buffer. -/
def readRow : SafeBoxRecordSet R := { self with currentRowBuf := t.row self.currentRow }

/-- Only the row number changes: the row buffer keeps the record it had. -/
def moveFirst : Bool × SafeBoxRecordSet R :=
  let self := { self with currentRow := 0 }
  if getRecordCount t = 0 then (false, self) else (true, self)

def moveBeforeFirst : Bool × SafeBoxRecordSet R := (true, { self with currentRow := -1 })

def moveNext : Bool × SafeBoxRecordSet R :=
  let count : Int := getRecordCount t
  if count = 0 ∨ self.currentRow ≥ count then (false, self)
  else
    let self := { self with currentRow := self.currentRow + 1 }
    if self.currentRow ≥ count then (false, self) else (true, self.readRow t)

def movePrev : Bool × SafeBoxRecordSet R :=
  if getRecordCount t = 0 then (false, self)
  else
    let self := { self with currentRow := self.currentRow - 1 }
    if self.currentRow < 0 then (false, self) else (true, self.readRow t)

def moveLast : Bool × SafeBoxRecordSet R :=
  if getRecordCount t = 0 then (false, self)
  else
    let self := { self with currentRow := (getRecordCount t : Int) - 1 }
    if self.currentRow = -1 then (false, self) else (true, self.readRow t)

/-- `seek`, with its failure: `none` raises `INVALID_SEEK_EX` and changes nothing. -/
def seek (aDirection : SeekOrigin) (anOffset : Int) : Option (SafeBoxRecordSet R) :=
  let row : Int := match aDirection with
    | .end => getRecordCount t - anOffset - 1
    | .set => anOffset
    | .cur => self.currentRow - anOffset
  if row < -1 ∨ isPastCount t row then none
  else some ({ self with currentRow := row }.readRow t)

/-- The record the getters read, unless they raise `NO_CURRENT_RECORD_EX`. -/
def getRecord : Option R :=
  if isPastCount t self.currentRow then none else some self.currentRowBuf

/-- One movement. -/
def move : Move → MoveResult × SafeBoxRecordSet R
  | .moveFirst => let (b, self) := self.moveFirst t; (.bool b, self)
  | .moveBeforeFirst => let (b, self) := self.moveBeforeFirst; (.bool b, self)
  | .moveNext => let (b, self) := self.moveNext t; (.bool b, self)
  | .movePrev => let (b, self) := self.movePrev t; (.bool b, self)
  | .moveLast => let (b, self) := self.moveLast t; (.bool b, self)
  | .seek anOffset =>
    match self.seek t .set anOffset with
    | some self => (.void, self)
    | none => (.invalidSeek, self)

end SafeBoxRecordSet

/-! ## Where the two handles stand -/

section

variable {R : Type} (t : SafeBoxTable R)

/-- The two handles are both before the first record, on the same record, or both past
the last one with the last record in their buffers. -/
inductive Corresponds (file : RecordSet R) (box : SafeBoxRecordSet R) : Prop
  | before (pos : file.pos = 0) (row : box.currentRow < 0) (feof : file.feof = false)
      (saved : file.isNewRecord = false)
  | on (k : Nat) (at_k : t.records[k]? = some file.buffer) (pos : file.pos = k + 1)
      (row : box.currentRow = k) (same : box.currentRowBuf = file.buffer)
      (feof : file.feof = false) (saved : file.isNewRecord = false)
  | past (nonempty : t.records ≠ []) (pos : file.pos = t.records.length)
      (row : box.currentRow = t.records.length) (same : box.currentRowBuf = file.buffer)
      (feof : file.feof = true) (saved : file.isNewRecord = false)

/-- A movement makes the two record sets agree: they return the same and then expose
the same record, or both have none. -/
def Agrees (s : RecordSet R × SafeBoxRecordSet R) (m : Move) : Prop :=
  (s.1.move t.toTable m).1 = (s.2.move t m).1 ∧
    (s.1.move t.toTable m).2.getRecord = (s.2.move t m).2.getRecord t

/-- The movements, by the state before them, that the two classes handle alike.  What
it leaves out: `moveFirst` when the row buffer holds another record than the first;
the movements that go to the start of an empty table; `moveNext` from a row that
`movePrev` has taken below `-1`; `movePrev` from past the last record, which steps to
the last one in one class and to the one before it in the other; and positions
without a record. -/
def HandledAlike (s : RecordSet R × SafeBoxRecordSet R) : Move → Prop
  | .moveFirst => t.records.head? = some s.2.currentRowBuf
  | .moveBeforeFirst => t.records ≠ []
  | .moveNext => t.records = [] ∨ -1 ≤ s.2.currentRow
  | .movePrev => t.records = [] ∨ s.2.currentRow < t.records.length
  | .moveLast => True
  | .seek anOffset => 0 ≤ anOffset ∧ anOffset < t.records.length

instance [DecidableEq R] (s : RecordSet R × SafeBoxRecordSet R) :
    (m : Move) → Decidable (HandledAlike t s m)
  | .moveFirst => inferInstanceAs (Decidable (_ = _))
  | .moveBeforeFirst => inferInstanceAs (Decidable (¬ _ = _))
  | .moveNext => inferInstanceAs (Decidable (_ ∨ _))
  | .movePrev => inferInstanceAs (Decidable (_ ∨ _))
  | .moveLast => inferInstanceAs (Decidable True)
  | .seek _ => inferInstanceAs (Decidable (_ ∧ _))

instance [DecidableEq R] (s : RecordSet R × SafeBoxRecordSet R) (m : Move) :
    Decidable (Agrees t s m) :=
  inferInstanceAs (Decidable (_ ∧ _))

/-- One movement of both handles. -/
def moveBoth (m : Move) (s : RecordSet R × SafeBoxRecordSet R) :
    RecordSet R × SafeBoxRecordSet R :=
  ((s.1.move t.toTable m).2, (s.2.move t m).2)

variable {t} {file : RecordSet R} {box : SafeBoxRecordSet R}

theorem Corresponds.getRecord_eq (both : Corresponds t file box) :
    file.getRecord = box.getRecord t := by
  cases both with
  | before pos row feof saved =>
    rw [RecordSet.getRecord, if_pos ⟨pos, saved⟩, SafeBoxRecordSet.getRecord, if_pos (.inl row)]
  | on k at_k pos row same feof saved =>
    have inside : k < t.records.length := (List.getElem?_eq_some_iff.1 at_k).1
    have counted : ¬ SafeBoxRecordSet.isPastCount t box.currentRow := by
      rw [SafeBoxRecordSet.isPastCount, SafeBoxRecordSet.getRecordCount]
      omega
    rw [RecordSet.getRecord, if_neg (by omega), SafeBoxRecordSet.getRecord, if_neg counted, same]
  | past nonempty pos row same feof saved =>
    have filled := length_pos_of_ne_nil nonempty
    have counted : ¬ SafeBoxRecordSet.isPastCount t box.currentRow := by
      rw [SafeBoxRecordSet.isPastCount, SafeBoxRecordSet.getRecordCount]
      omega
    rw [RecordSet.getRecord, if_neg (by omega), SafeBoxRecordSet.getRecord, if_neg counted, same]

variable {k : Nat} {r : R}

theorem Corresponds.onRecord (at_k : t.records[k]? = some r) :
    Corresponds t (RecordSet.onRecord k r) ⟨k, r⟩ :=
  .on k at_k rfl rfl rfl rfl rfl

theorem SafeBoxTable.row_of_getElem? (at_k : t.records[k]? = some r) : t.row k = r := by
  rw [SafeBoxTable.row, if_neg (by omega)]
  simp [at_k]

/-! ## One movement -/

/-- A movement returns the same for both and leaves them where they correspond. -/
def Alike (t : SafeBoxTable R) (file : Bool × RecordSet R) (box : Bool × SafeBoxRecordSet R) :
    Prop :=
  file.1 = box.1 ∧ Corresponds t file.2 box.2

theorem moveFirst_alike (first : t.records.head? = some box.currentRowBuf) :
    Alike t (file.moveFirst t.toTable) (box.moveFirst t) := by
  rcases List.head?_eq_some_iff.1 first with ⟨rest, records⟩
  have count : SafeBoxRecordSet.getRecordCount t ≠ 0 := by
    simp [SafeBoxRecordSet.getRecordCount, records]
  rw [RecordSet.moveFirst_cons records, SafeBoxRecordSet.moveFirst, if_neg count]
  exact ⟨rfl, .onRecord (k := 0) (by simp [records])⟩

theorem moveBeforeFirst_alike (both : Corresponds t file box) (nonempty : t.records ≠ []) :
    Alike t (file.moveBeforeFirst t.toTable) box.moveBeforeFirst := by
  have saved : file.isNewRecord = false := by
    cases both with
    | before pos row feof saved => exact saved
    | on k at_k pos row same feof saved => exact saved
    | past nonempty pos row same feof saved => exact saved
  refine ⟨?_, ?_⟩
  · rw [RecordSet.moveBeforeFirst_fst, SafeBoxRecordSet.moveBeforeFirst]
    simpa using nonempty
  · rw [RecordSet.moveBeforeFirst_snd]
    exact .before rfl (Int.negSucc_lt_zero 0) rfl saved

theorem moveNext_box (at_k : t.records[k]? = some r) (row : box.currentRow = (k : Int) - 1) :
    box.moveNext t = (true, ⟨k, r⟩) := by
  have inside : k < t.records.length := (List.getElem?_eq_some_iff.1 at_k).1
  have next : box.currentRow + 1 = k := by omega
  have counted : (SafeBoxRecordSet.getRecordCount t : Int) = t.records.length := rfl
  rw [SafeBoxRecordSet.moveNext, if_neg (by omega)]
  simp only [next]
  rw [if_neg (by omega), SafeBoxRecordSet.readRow, SafeBoxTable.row_of_getElem? at_k]

theorem moveNext_alike (both : Corresponds t file box)
    (row : t.records = [] ∨ -1 ≤ box.currentRow) :
    Alike t (file.moveNext t.toTable) (box.moveNext t) := by
  have counted : (SafeBoxRecordSet.getRecordCount t : Int) = t.records.length := rfl
  rcases eq_nil_or_concat t.records with empty | ⟨_, _, records⟩
  · have none_left : box.moveNext t = (false, box) := by
      rw [SafeBoxRecordSet.moveNext, if_pos (.inl (by simp [counted, empty]))]
    rw [RecordSet.moveNext_nil empty, none_left]
    exact ⟨rfl, both⟩
  have nonempty : t.records ≠ [] := by simp [records]
  have filled := length_pos_of_ne_nil nonempty
  have low := row.resolve_left nonempty
  cases both with
  | before pos at_row feof saved =>
    have at_0 : t.records[0]? = some t.records[0] := List.getElem?_eq_getElem filled
    have read : file.moveNext t.toTable = (true, .onRecord file.pos t.records[0]) :=
      RecordSet.moveNext_read (by rw [pos, at_0]) feof
    rw [read, moveNext_box at_0 (by omega), pos]
    exact ⟨rfl, .onRecord at_0⟩
  | on k at_k pos at_row same feof saved =>
    rcases Nat.lt_or_ge (k + 1) t.records.length with more | last
    · have next : t.records[k + 1]? = some t.records[k + 1] := List.getElem?_eq_getElem more
      have read : file.moveNext t.toTable = (true, .onRecord file.pos t.records[k + 1]) :=
        RecordSet.moveNext_read (by rw [pos, next]) feof
      rw [read, moveNext_box next (by omega), pos]
      exact ⟨rfl, .onRecord next⟩
    · -- the last record: the file raises its flag, the row number moves past the records
      have inside : k < t.records.length := (List.getElem?_eq_some_iff.1 at_k).1
      have read : ({ file with isNewRecord := false, isDirty := false } : RecordSet R).fread
          t.toTable = { file with feof := true, isNewRecord := false, isDirty := false } :=
        RecordSet.fread_of_length_le (pos ▸ last)
      have out : box.moveNext t = (false, ⟨k + 1, box.currentRowBuf⟩) := by
        have past : ((k : Int) + 1) ≥ SafeBoxRecordSet.getRecordCount t := by omega
        rw [SafeBoxRecordSet.moveNext, if_neg (by omega), at_row]
        exact if_pos past
      have eof : file.moveNext t.toTable =
          (false, { file with feof := true, isNewRecord := false, isDirty := false }) := by
        rw [RecordSet.moveNext, if_neg (by simp [RecordSet.eof, feof, nonempty]), read]
        simp [RecordSet.eof]
      rw [out, eof]
      exact ⟨rfl, .past nonempty (by simpa only [pos] using by omega)
        (by simpa only using by omega) same rfl rfl⟩
  | past _ pos at_row same feof saved =>
    have stay : file.moveNext t.toTable = (false, file) := by
      rw [RecordSet.moveNext, if_pos (by simp [RecordSet.eof, feof])]
    have stuck : box.moveNext t = (false, box) := by
      rw [SafeBoxRecordSet.moveNext, if_pos (.inr (by omega))]
    rw [stay, stuck]
    exact ⟨rfl, .past nonempty pos at_row same feof saved⟩

theorem movePrev_box_out (row : box.currentRow ≤ 0)
    (inside : t.records = [] → box.currentRow < 0) :
    (box.movePrev t).1 = false ∧ (box.movePrev t).2.currentRow < 0 := by
  rw [SafeBoxRecordSet.movePrev]
  by_cases empty : SafeBoxRecordSet.getRecordCount t = 0
  · rw [if_pos empty]
    exact ⟨rfl, inside (eq_nil_of_length_eq_zero empty)⟩
  · have below : box.currentRow - 1 < 0 := by omega
    rw [if_neg empty]
    simp [below]

theorem movePrev_alike (both : Corresponds t file box)
    (row : t.records = [] ∨ box.currentRow < t.records.length) :
    Alike t (file.movePrev t.toTable) (box.movePrev t) := by
  have counted : (SafeBoxRecordSet.getRecordCount t : Int) = t.records.length := rfl
  cases both with
  | before pos at_row feof saved =>
    rcases movePrev_box_out (t := t) (by omega) (fun _ => at_row) with ⟨failed, below⟩
    rw [RecordSet.movePrev_start pos]
    exact ⟨failed.symm, .before pos below feof saved⟩
  | on k at_k pos at_row same feof saved =>
    have inside : k < t.records.length := (List.getElem?_eq_some_iff.1 at_k).1
    rcases k with _ | k
    · have filled : t.records ≠ [] := ne_nil_of_length_pos inside
      have start : box.currentRow ≤ 0 := by omega
      rcases movePrev_box_out start (fun empty => absurd empty filled) with ⟨failed, below⟩
      rw [RecordSet.movePrev_first pos]
      exact ⟨failed.symm, .before rfl below rfl saved⟩
    · have back : t.records[k]? = some t.records[k] := List.getElem?_eq_getElem (by omega)
      have prev : box.movePrev t = (true, ⟨k, t.records[k]⟩) := by
        have down : box.currentRow - 1 = k := by omega
        rw [SafeBoxRecordSet.movePrev, if_neg (by omega)]
        simp only [down]
        rw [if_neg (by omega), SafeBoxRecordSet.readRow, SafeBoxTable.row_of_getElem? back]
      rw [RecordSet.movePrev_read pos back, prev]
      exact ⟨rfl, .on k back rfl rfl rfl rfl saved⟩
  | past nonempty pos at_row same feof saved =>
    rcases row with empty | below
    · exact absurd empty nonempty
    · exact absurd below (by omega)

theorem moveLast_alike (both : Corresponds t file box) :
    Alike t (file.moveLast t.toTable) (box.moveLast t) := by
  rcases eq_nil_or_concat t.records with empty | ⟨init, r, records⟩
  · have start : file.pos = 0 := by
      cases both with
      | before pos row feof saved => exact pos
      | on k at_k pos row same feof saved => simp [empty] at at_k
      | past nonempty pos row same feof saved => exact absurd empty nonempty
    have stay : file.moveLast t.toTable = (false, file) := by
      rw [RecordSet.moveLast, if_pos (by simp [RecordSet.bof, RecordSet.eof, start, empty])]
    have stuck : box.moveLast t = (false, box) := by
      rw [SafeBoxRecordSet.moveLast, if_pos (by simp [SafeBoxRecordSet.getRecordCount, empty])]
    rw [stay, stuck]
    exact ⟨rfl, both⟩
  · have sound : file.feof = true → file.pos ≠ 0 := by
      cases both with
      | before pos row feof saved => simp [feof]
      | on k at_k pos row same feof saved => simp [feof]
      | past nonempty pos row same feof saved => simp [pos, nonempty]
    have last : t.records[init.length]? = some r := by simp [records]
    have end_row : ((SafeBoxRecordSet.getRecordCount t : Int) - 1) = init.length := by
      simp [SafeBoxRecordSet.getRecordCount, records]
    have read : box.moveLast t = (true, ⟨init.length, r⟩) := by
      rw [SafeBoxRecordSet.moveLast, if_neg (by simp [SafeBoxRecordSet.getRecordCount, records])]
      simp only [end_row]
      rw [if_neg (by omega), SafeBoxRecordSet.readRow, SafeBoxTable.row_of_getElem? last]
    rw [RecordSet.moveLast_snoc (by simpa using records) sound, read]
    exact ⟨rfl, .onRecord last⟩

theorem seek_alike (file : RecordSet R) (box : SafeBoxRecordSet R) {anOffset : Int}
    (inside : 0 ≤ anOffset ∧ anOffset < t.records.length) :
    ∃ next, box.seek t .set anOffset = some next ∧
      Corresponds t (file.seek t.toTable .set anOffset) next := by
  rcases Int.eq_ofNat_of_zero_le inside.1 with ⟨k, rfl⟩
  have at_k : t.records[k]? = some t.records[k] := List.getElem?_eq_getElem (by omega)
  have counted : ¬ ((k : Int) < -1 ∨ SafeBoxRecordSet.isPastCount t k) := by
    rw [SafeBoxRecordSet.isPastCount, SafeBoxRecordSet.getRecordCount]
    omega
  refine ⟨⟨k, t.records[k]⟩, ?_, ?_⟩
  · rw [SafeBoxRecordSet.seek]
    simp only [if_neg counted, SafeBoxRecordSet.readRow, SafeBoxTable.row_of_getElem? at_k]
  · rw [RecordSet.seek_set at_k]
    exact .onRecord at_k

theorem Corresponds.move (both : Corresponds t file box) {m : Move}
    (alike : HandledAlike t (file, box) m) :
    Corresponds t (file.move t.toTable m).2 (box.move t m).2 ∧ Agrees t (file, box) m := by
  suffices step : (file.move t.toTable m).1 = (box.move t m).1 ∧
      Corresponds t (file.move t.toTable m).2 (box.move t m).2 by
    exact ⟨step.2, step.1, step.2.getRecord_eq⟩
  cases m with
  | moveFirst => exact (moveFirst_alike alike).imp_left (congrArg _)
  | moveBeforeFirst => exact (moveBeforeFirst_alike both alike).imp_left (congrArg _)
  | moveNext => exact (moveNext_alike both alike).imp_left (congrArg _)
  | movePrev => exact (movePrev_alike both alike).imp_left (congrArg _)
  | moveLast => exact (moveLast_alike both).imp_left (congrArg _)
  | seek anOffset =>
    rcases seek_alike file box alike with ⟨next, found, moved⟩
    simp only [RecordSet.move, SafeBoxRecordSet.move, found]
    exact ⟨trivial, moved⟩

end

/-! ## Runs of movements -/

/-- A table of two records, for runs on fixed inputs. -/
def twoRows : SafeBoxTable Nat := ⟨⟨[1, 2], 0⟩, fun _ => 0⟩

/-- Two handles just opened on a table of two records: `moveFirst` after `moveLast`
succeeds in both, and only the file's handle is then on the first record. -/
theorem SafeBoxRecordSet.moveFirst_stale :
    ¬ ∀ (t : SafeBoxTable Nat) (blank allocated : Nat) (ms : List Move),
      Trace.Always (moveBoth t) (Agrees t) ms
        (RecordSet.open ⟨blank, none⟩, SafeBoxRecordSet.open allocated) := by
  intro always
  have shown := always twoRows 0 0 [.moveLast, .moveFirst]
  exact absurd shown.2.1.2 (by decide)

/-- Over every run of movements from two handles just opened whose steps are all
handled alike, the record sets return the same and expose the same current record. -/
theorem SafeBoxRecordSet.run_agrees {R : Type} (t : SafeBoxTable R) (schema : Schema R)
    (allocated : R) (ms : List Move)
    (alike : Trace.Always (moveBoth t) (HandledAlike t) ms
      (RecordSet.open schema, SafeBoxRecordSet.open allocated)) :
    Trace.Always (moveBoth t) (Agrees t) ms
      (RecordSet.open schema, SafeBoxRecordSet.open allocated) := by
  have start : Corresponds t (RecordSet.open schema) (SafeBoxRecordSet.open allocated) :=
    .before rfl (Int.negSucc_lt_zero 0) rfl rfl
  exact Trace.Always.of_invariant (fun s => Corresponds t s.1 s.2)
    (fun both ok => Corresponds.move both ok) start alike

/-- A run over both ends of a table and past its last record. -/
theorem SafeBoxRecordSet.run_agrees_ends :
    Trace.Always (moveBoth twoRows) (Agrees twoRows)
      [.moveNext, .moveNext, .moveNext, .moveNext, .moveLast, .movePrev, .movePrev,
        .movePrev, .moveBeforeFirst, .seek 1]
      (RecordSet.open ⟨0, none⟩, SafeBoxRecordSet.open 7) :=
  SafeBoxRecordSet.run_agrees _ _ _ _ (by decide)

end CimArm
