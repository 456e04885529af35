import CimArm.Dao.DepositRecords
import CimArm.Db.Alignment
import CimArm.Db.Run

/-!
# The data access object of deposits

`DepositDAO` stores a deposit in two multi-part tables: its header in `deposits`,
limited in records per part, and its details in `deposit_details`, without limit and
cut when the header table has started a part.  Runs store deposits, load them and
restart; in every state reached a deposit whose header is retained is loaded with
all details that were stored with it (`run_loadById`).

The copy that is kept on the safe box board is not modelled.
-/

namespace CimArm

open List

/-- How the two tables are configured; the details may have at least as many part
files as the headers. -/
structure DepositTables : Type where
  recordsByFile : Option Nat
  maxFiles : Nat
  detailMaxFiles : Nat
  two_le : 2 ≤ maxFiles
  le_detail : maxFiles ≤ detailMaxFiles

/-- The configuration the program is shipped with. -/
def DepositTables.shipped : DepositTables := ⟨some 400, 10, 50, by decide, by decide⟩

/-- `deposits`, opened with `CLOSE_TIME` as date and `NUMBER` as id. -/
def DepositTables.headers (tables : DepositTables) : MultiPartSchema DepositRecord where
  blank := .blank
  autoIncField := none
  idField := ⟨4, (·.number)⟩
  dateField := some (·.closeTime)
  maxRecordCount := tables.recordsByFile
  maxFiles := tables.maxFiles
  id_kept _ := .inl rfl
  id_read h := nomatch h
  id_write h := nomatch h
  date_write h := nomatch h

/-- `deposit_details`, opened without date, with `NUMBER` as id and no record limit. -/
def DepositTables.details (tables : DepositTables) : MultiPartSchema DepositDetailRecord where
  blank := .blank
  autoIncField := none
  idField := ⟨4, (·.number)⟩
  dateField := none
  maxRecordCount := none
  maxFiles := tables.detailMaxFiles
  id_kept _ := .inl rfl
  id_read h := nomatch h
  id_write h := nomatch h
  date_write h := nomatch h

/-- The header record of a deposit. A part takes as many bytes of a text as its field has. -/
def DepositRecord.ofDeposit (anObject : Deposit) : DepositRecord :=
  { DepositRecord.blank.setDepositValues toText anObject with number := toULong anObject.number }

/-- The detail records of a deposit. -/
def Deposit.detailRecords (anObject : Deposit) : List DepositDetailRecord :=
  anObject.depositDetails.map (.ofDetail anObject.number)

structure DepositDAO : Type where
  deposits : MultiPart DepositRecord
  details : MultiPart DepositDetailRecord

namespace DepositDAO

variable (tables : DepositTables) (registry : Registry) (self : DepositDAO)

/-- The object when the database is empty. -/
def created : DepositDAO := ⟨.created tables.headers, .created tables.details⟩

/-- Both tables closed and opened again at a restart. -/
def reopen : DepositDAO :=
  ⟨self.deposits.reopen tables.headers, self.details.reopen tables.details⟩

def saveDepositDetail (aDeposit : Deposit) (self : DepositDAO) (aDepositDetail : DepositDetail) :
    DepositDAO :=
  { self with details := (self.details.store tables.details
      (.ofDetail aDeposit.number aDepositDetail)).2 }

def storeDetails (anObject : Deposit) : DepositDAO :=
  anObject.depositDetails.foldl (saveDepositDetail tables anObject) self

/-- Save the header of a deposit. When the header table has started a part the
details are cut as well: either the number of parts is another one or, with the
maximum of parts, the table says so. -/
def storeHeader (anObject : Deposit) : DepositDAO :=
  let deposits := (self.deposits.add tables.headers).setValues (.ofDeposit anObject)
  let (indexCount, deposits) := deposits.getIndexCount
  let (_, deposits) := deposits.saveNew tables.headers
  let (newCount, deposits) := deposits.getIndexCount
  let details := if newCount ≠ indexCount || deposits.shouldCutFile then self.details.cutFile
    else self.details
  ⟨deposits.setShouldCutFile false, details⟩

def store (anObject : Deposit) : DepositDAO :=
  (self.storeHeader tables anObject).storeDetails tables anObject

/-- Add the details of the number of a deposit to it: from the first one on, as long
as the number stays. -/
def readDetails (deposit : Deposit) (details : MultiPart DepositDetailRecord) :
    Deposit × MultiPart DepositDetailRecord :=
  let (found, details) := details.findFirstById tables.details tables.details.idField
    deposit.number
  if !found then (deposit, details)
  else
    details.readWhile tables.details
      (fun r => tables.details.idField.get r = deposit.number)
      (fun deposit r => { deposit with
        depositDetails := deposit.depositDetails ++ [.ofRecord registry r] })
      (details.stored.length + 1) deposit

/-- The deposit of the current header record. -/
def getDepositFromRecordSet : Deposit × DepositDAO :=
  let header := self.deposits.data.buffer
  let (deposit, details) := readDetails tables registry
    { Deposit.ofRecord registry header with number := header.number } self.details
  (deposit, { self with details := details })

def loadById (anId : Nat) : Option Deposit × DepositDAO :=
  let (found, deposits) := self.deposits.findById tables.headers tables.headers.idField anId
  let self := { self with deposits := deposits }
  if !found then (none, self)
  else
    let (deposit, self) := self.getDepositFromRecordSet tables registry
    (some deposit, self)

def loadLast : Option Deposit × DepositDAO :=
  let (found, deposits) := self.deposits.moveLast tables.headers
  let self := { self with deposits := deposits }
  if !found then (none, self)
  else
    let (deposit, self) := self.getDepositFromRecordSet tables registry
    (some deposit, self)

/-! ## Loading -/

/-- Both tables keep what they store, with their cursors in step. -/
def Keeps (s s' : DepositDAO) : Prop :=
  s.deposits.Keeps s'.deposits ∧ s.details.Keeps s'.details

variable {tables} {registry} {s : DepositDAO}

theorem keeps_readDetails (deposit : Deposit) {details : MultiPart DepositDetailRecord}
    (sync : details.Synced) : details.Keeps (readDetails tables registry deposit details).2 := by
  have found := sync.moves_findFirstById tables.details tables.details.idField deposit.number
  rw [readDetails]
  generalize details.findFirstById tables.details tables.details.idField deposit.number = step
    at found ⊢
  obtain ⟨hit, details₁⟩ := step
  cases hit with
  | false => exact found.keeps
  | true => exact (found.trans (found.2.moves_readWhile tables.details _ _ _ _)).keeps

theorem readDetails_eq (deposit : Deposit) {details : MultiPart DepositDetailRecord}
    (sync : details.Synced) (sorted : details.content.Sorted tables.details) :
    (readDetails tables registry deposit details).1 = { deposit with
      depositDetails := deposit.depositDetails ++
        (details.stored.filter fun r => r.number = deposit.number).map (.ofRecord registry) } := by
  have add (rs : List DepositDetailRecord) (deposit : Deposit) :
      rs.foldl (fun deposit r => { deposit with
        depositDetails := deposit.depositDetails ++ [.ofRecord registry r] }) deposit =
      { deposit with
        depositDetails := deposit.depositDetails ++ rs.map (.ofRecord registry) } := by
    induction rs generalizing deposit with
    | nil => simp
    | cons r rs ih => simp [ih]
  have read := sync.findFirstById_readWhile sorted rfl deposit.number
    (fun deposit r => { deposit with
      depositDetails := deposit.depositDetails ++ [.ofRecord registry r] }) deposit
  have content := (sync.moves_findFirstById tables.details tables.details.idField
    deposit.number).1.content
  rw [add] at read
  refine Eq.trans ?_ read
  rw [readDetails]
  generalize details.findFirstById tables.details tables.details.idField deposit.number = step
    at content ⊢
  obtain ⟨hit, details₁⟩ := step
  have length : details₁.stored.length = details.content.stored.length :=
    congrArg (·.stored.length) content
  cases hit with
  | false => rfl
  | true =>
    simp only [Bool.not_true, Bool.false_eq_true, if_false, if_true, length]

theorem keeps_getDepositFromRecordSet (deposits : s.deposits.Synced) (details : s.details.Synced) :
    s.Keeps (s.getDepositFromRecordSet tables registry).2 :=
  ⟨deposits.keeps, keeps_readDetails _ details⟩

theorem keeps_loadById (deposits : s.deposits.Synced) (details : s.details.Synced) (anId : Nat) :
    s.Keeps (s.loadById tables registry anId).2 := by
  have found := (deposits.moves_binarySearch tables.headers tables.headers.idField anId).keeps
  rw [loadById, MultiPart.findById]
  generalize s.deposits.binarySearch tables.headers tables.headers.idField anId = step at found ⊢
  obtain ⟨hit, deposits₁⟩ := step
  cases hit with
  | false => exact ⟨found, details.keeps⟩
  | true =>
    have read := @keeps_getDepositFromRecordSet tables registry ⟨deposits₁, s.details⟩
      found.2 details
    exact ⟨found.trans read.1, read.2⟩

theorem keeps_loadLast (deposits : s.deposits.Synced) (details : s.details.Synced) :
    s.Keeps (s.loadLast tables registry).2 := by
  have found := (deposits.moves_moveLast tables.headers).keeps
  rw [loadLast]
  generalize s.deposits.moveLast tables.headers = step at found ⊢
  obtain ⟨hit, deposits₁⟩ := step
  cases hit with
  | false => exact ⟨found, details.keeps⟩
  | true =>
    have read := @keeps_getDepositFromRecordSet tables registry ⟨deposits₁, s.details⟩
      found.2 details
    exact ⟨found.trans read.1, read.2⟩

/-! ## Storing -/

/-- The object after the deposits `written` were stored: the cursors are in step, no
header part is asked for, and the details are aligned with the headers. -/
structure Sound (tables : DepositTables) (written : List Deposit) (s : DepositDAO) : Prop where
  deposits : s.deposits.Synced
  details : s.details.Synced
  noAppend : s.deposits.appendFileMode = false
  noCut : s.deposits.shouldCutFile = false
  headers : ∀ r ∈ s.deposits.stored, ∃ d ∈ written, .ofDeposit d = r
  aligned : ∃ level, Content.Aligned tables.headers tables.details level s.deposits.content
    s.details.content s.details.appendFileMode (written.flatMap (·.detailRecords))

variable {written : List Deposit} {d : Deposit}

theorem Sound.of_keeps {s' : DepositDAO} (sound : s.Sound tables written) (keeps : s.Keeps s') :
    s'.Sound tables written := by
  obtain ⟨⟨frame, sync⟩, frame', sync'⟩ := keeps
  obtain ⟨level, aligned⟩ := sound.aligned
  have stored : s'.deposits.stored = s.deposits.stored := congrArg Content.stored frame.content
  refine ⟨sync, sync', frame.appendFileMode.trans sound.noAppend,
    frame.shouldCutFile.trans sound.noCut, stored ▸ sound.headers, level, ?_⟩
  rw [frame.content, frame'.content, frame'.appendFileMode]
  exact aligned

theorem Sound.reopen (sound : s.Sound tables written) : (s.reopen tables).Sound tables written := by
  obtain ⟨level, aligned⟩ := sound.aligned
  obtain ⟨sync, content⟩ := MultiPart.reopen_content sound.deposits aligned.wellFormed.toShaped
  obtain ⟨sync', content'⟩ := MultiPart.reopen_content sound.details aligned.shaped
  have flags := MultiPart.reopen_flags aligned.wellFormed.toShaped
  have flags' := MultiPart.reopen_flags aligned.shaped
  have stored : (s.reopen tables).deposits.stored = s.deposits.stored :=
    (congrArg Content.stored content).trans (Content.reload_stored _ _)
  refine ⟨sync, sync', flags.1, flags.2, stored ▸ sound.headers, level, ?_⟩
  rw [show (s.reopen tables).deposits.content = _ from content,
    show (s.reopen tables).details.content = _ from content',
    show (s.reopen tables).details.appendFileMode = false from flags'.1]
  exact aligned.reload

theorem storeDetails_aligned {level : Nat → Nat} {written : List DepositDetailRecord}
    (d : Deposit) (lines : List DepositDetail) (sync : s.details.Synced)
    (aligned : Content.Aligned tables.headers tables.details level s.deposits.content
      s.details.content s.details.appendFileMode written)
    (here : level (toULong d.number) = s.deposits.content.nextName)
    (last : ∀ y ∈ written, y.number ≤ toULong d.number) :
    let s' := lines.foldl (saveDepositDetail tables d) s
    s'.deposits = s.deposits ∧ s'.details.Synced ∧
      Content.Aligned tables.headers tables.details level s.deposits.content s'.details.content
        s'.details.appendFileMode (written ++ lines.map (.ofDetail d.number)) := by
  induction lines generalizing s written with
  | nil => exact ⟨rfl, sync, by simpa using aligned⟩
  | cons line lines ih =>
    obtain ⟨sync₁, content₁, mode₁, -⟩ := MultiPart.store_content tables.details sync
      (MultiPart.filled_of_shaped aligned.shaped) (.ofDetail d.number line)
    have aligned₁ := aligned.storeDetail (x := .ofDetail d.number line) tables.two_le
      tables.le_detail rfl rfl here fun y hy => last y (aligned.mem_written hy)
    have rest := @ih (s.saveDepositDetail tables d line) (written ++ [.ofDetail d.number line])
      sync₁ (by
        show Content.Aligned _ _ _ _ (s.details.store tables.details _).2.content
          (s.details.store tables.details _).2.appendFileMode _
        rw [content₁, mode₁]
        exact aligned₁) here ?_
    · rw [append_assoc] at rest
      exact rest
    · intro y hy
      rcases mem_append.1 hy with hy | hy
      · exact last y hy
      · exact Nat.le_of_eq (congrArg _ (mem_singleton.1 hy))

/-- Saving a header asks for a cut of the details only when the header table has
started a part. -/
theorem storeHeader_eq {level : Nat → Nat} {written : List DepositDetailRecord} (d : Deposit)
    (deposits : s.deposits.Synced) (noAppend : s.deposits.appendFileMode = false)
    (noCut : s.deposits.shouldCutFile = false)
    (aligned : Content.Aligned tables.headers tables.details level s.deposits.content
      s.details.content s.details.appendFileMode written) :
    let s' := s.storeHeader tables d
    s'.deposits.Synced ∧
      s'.deposits.content = s.deposits.content.store tables.headers false (.ofDeposit d) ∧
      s'.deposits.appendFileMode = false ∧ s'.deposits.shouldCutFile = false ∧
      ((s'.details = s.details.cutFile ∧
          s.deposits.content.starts tables.headers false = true) ∨ s'.details = s.details) := by
  intro s'
  have shaped := aligned.wellFormed.toShaped
  have sync := (deposits.setValues tables.headers (.ofDeposit d)).getIndexCount
  have saved := MultiPart.saveNew_content tables.headers sync (MultiPart.filled_of_shaped shaped)
  have header : s' = ⟨((((s.deposits.add tables.headers).setValues
      (.ofDeposit d)).getIndexCount.2.saveNew tables.headers).2.getIndexCount.2).setShouldCutFile
        false, if (((s.deposits.add tables.headers).setValues
          (.ofDeposit d)).getIndexCount.2.saveNew tables.headers).2.indexTable.records.length ≠
            s.deposits.indexTable.records.length || (((s.deposits.add tables.headers).setValues
              (.ofDeposit d)).getIndexCount.2.saveNew tables.headers).2.shouldCutFile
        then s.details.cutFile else s.details⟩ := rfl
  generalize (((s.deposits.add tables.headers).setValues (.ofDeposit d)).getIndexCount.2.saveNew
    tables.headers).2 = s₁ at saved header
  obtain ⟨sync₁, content, mode, cut⟩ := saved
  have content : s₁.content = s.deposits.content.store tables.headers false (.ofDeposit d) := by
    rw [content, ← noAppend]
    rfl
  have cut : s₁.shouldCutFile = (s.deposits.content.rotates tables.headers false &&
      tables.headers.maxRecordCount.isSome) := by
    rw [cut, ← noAppend]
    show (s.deposits.shouldCutFile || _) = _
    rw [noCut, Bool.false_or]
    rfl
  rw [header]
  refine ⟨sync₁.getIndexCount.setShouldCutFile false, content, mode, rfl, ?_⟩
  dsimp only
  split_ifs with asked
  · refine .inl ⟨rfl, ?_⟩
    by_contra still
    have still : s.deposits.content.starts tables.headers false = false := by simpa using still
    simp only [Content.starts, Bool.or_eq_false_iff, decide_eq_false_iff_not] at still
    rcases Content.store_cases tables.two_le shaped false (.ofDeposit d) with
      ⟨started, -, -⟩ | ⟨init, last, rows, kept, -, stored⟩
    · rcases started with started | started
      · exact still.1 started
      · simp [started] at still
    · rw [stored] at content
      have length : s₁.indexTable.records.length = s.deposits.indexTable.records.length := by
        have after : s₁.indexTable.records = _ := congrArg Content.rows content
        have before : s.deposits.indexTable.records = init ++ [last] := rows
        simp [after, before]
      rw [kept, Bool.false_and] at cut
      simp [length, cut] at asked
  · exact .inr rfl

theorem Sound.store (sound : s.Sound tables written) (newest : ∀ d' ∈ written, d'.number < d.number)
    (wide : d.number < ulongSize) : (s.store tables d).Sound tables (written ++ [d]) := by
  obtain ⟨level, aligned⟩ := sound.aligned
  obtain ⟨sync, content, mode, noCut, details⟩ := storeHeader_eq d sound.deposits sound.noAppend
    sound.noCut aligned
  have number : (DepositRecord.ofDeposit d).number = d.number := toULong_of_lt wide
  have before (x : DepositDetailRecord) (hx : x ∈ written.flatMap (·.detailRecords)) :
      x.number < d.number := by
    obtain ⟨d', hd', hx⟩ := mem_flatMap.1 hx
    obtain ⟨line, -, rfl⟩ := mem_map.1 hx
    exact Nat.lt_of_le_of_lt (Nat.mod_le _ _) (newest d' hd')
  have grows (a : DepositRecord) (ha : a ∈ s.deposits.content.stored) :
      a.number < (DepositRecord.ofDeposit d).number := by
    obtain ⟨d', hd', rfl⟩ := sound.headers a ha
    rw [number]
    exact Nat.lt_of_le_of_lt (Nat.mod_le _ _) (newest d' hd')
  have fresh (x : DepositDetailRecord) (hx : x ∈ written.flatMap (·.detailRecords)) :
      x.number ≠ (DepositRecord.ofDeposit d).number := by
    rw [number]
    exact Nat.ne_of_lt (before x hx)
  have aligned₁ := aligned.storeHeader (r := .ofDeposit d) tables.two_le rfl grows fresh
    (s.storeHeader tables d).details.appendFileMode fun asked => by
      rcases details with ⟨-, started⟩ | same
      · exact .inr started
      · exact .inl (same ▸ asked)
  have content' : (s.storeHeader tables d).details.content = s.details.content := by
    rcases details with ⟨cut, -⟩ | same
    · rw [cut]
      rfl
    · rw [same]
  have sync' : (s.storeHeader tables d).details.Synced := by
    rcases details with ⟨cut, -⟩ | same
    · rw [cut]
      exact sound.details.cutFile
    · rw [same]
      exact sound.details
  rw [← content, ← content'] at aligned₁
  obtain ⟨level₁, here, aligned₁⟩ : ∃ level₁, level₁ (toULong d.number) =
      (s.storeHeader tables d).deposits.content.nextName ∧
      Content.Aligned tables.headers tables.details level₁ (s.storeHeader tables d).deposits.content
        (s.storeHeader tables d).details.content (s.storeHeader tables d).details.appendFileMode
        (written.flatMap (·.detailRecords)) :=
    ⟨_, Function.update_self _ _ _, aligned₁⟩
  obtain ⟨headers, sync'', aligned₂⟩ := storeDetails_aligned d d.depositDetails sync' aligned₁
    here fun x hx => by
      rw [toULong_of_lt wide]
      exact Nat.le_of_lt (before x hx)
  have headers : (s.store tables d).deposits = (s.storeHeader tables d).deposits := headers
  refine ⟨headers ▸ sync, sync'', headers ▸ mode, headers ▸ noCut, fun r hr => ?_, level₁, ?_⟩
  · have stored : (s.store tables d).deposits.stored =
        (s.deposits.content.store tables.headers false (.ofDeposit d)).stored := by
      rw [headers]
      exact congrArg Content.stored content
    rw [stored, Content.store_stored tables.two_le aligned.wellFormed.toShaped,
      Content.newRecord_of_none rfl, mem_append, mem_singleton] at hr
    rcases hr with hr | rfl
    · have stay := Content.storedIn_staying_sublist tables.headers s.deposits.content false
      obtain ⟨d', hd', rfl⟩ := sound.headers r (stay.subset hr)
      exact ⟨d', mem_append_left _ hd', rfl⟩
    · exact ⟨d, by simp, rfl⟩
  · rw [headers, flatMap_append, flatMap_singleton]
    exact aligned₂

theorem sound_created (tables : DepositTables) : (created tables).Sound tables [] := by
  obtain ⟨sync, content⟩ := MultiPart.created_content tables.headers
  obtain ⟨sync', content'⟩ := MultiPart.created_content tables.details
  have flags {R : Type} (schema : MultiPartSchema R) :
      (MultiPart.created schema).appendFileMode = false ∧
        (MultiPart.created schema).shouldCutFile = false :=
    MultiPart.open_flags schema _ _ (Nat.zero_le _)
  have wf : (MultiPart.created tables.headers).content.WellFormed tables.headers :=
    (MultiPart.sound_created tables.headers).wf
  have shaped := MultiPart.shaped_created tables.details
  refine ⟨sync, sync', (flags _).1, (flags _).2, ?_, fun _ => 0, ?_⟩
  · show ∀ r ∈ (MultiPart.created tables.headers).content.stored, _
    rw [content]
    simp [Content.stored, Content.files]
  · show Content.Aligned _ _ _ (MultiPart.created tables.headers).content
      (MultiPart.created tables.details).content (MultiPart.created tables.details).appendFileMode _
    refine ⟨wf, ?_, shaped, ?_, ?_, ?_, ?_, ?_, ⟨[], ?_, ?_⟩⟩ <;>
      simp [content, content', Content.Consecutive, Content.stored, Content.files]

/-! ## Runs -/

/-- What the program does with the object. -/
inductive Op : Type
  | store (anObject : Deposit)
  | loadById (anId : Nat)
  | loadLast
  | reopen

def Op.apply (tables : DepositTables) (registry : Registry) : Op → DepositDAO → DepositDAO
  | .store anObject, s => s.store tables anObject
  | .loadById anId, s => (s.loadById tables registry anId).2
  | .loadLast, s => (s.loadLast tables registry).2
  | .reopen, s => s.reopen tables

def run (tables : DepositTables) (registry : Registry) (ops : List Op) (s : DepositDAO) :
    DepositDAO :=
  ops.foldl (fun s op => op.apply tables registry s) s

/-- The deposits a run stores, in order. -/
def stored (ops : List Op) : List Deposit :=
  ops.filterMap fun
    | .store anObject => some anObject
    | _ => none

theorem Sound.run (sound : s.Sound tables written) (ops : List Op)
    (numbers : (written ++ stored ops).Pairwise fun a b => a.number < b.number)
    (wide : ∀ d ∈ stored ops, d.number < ulongSize) :
    (run tables registry ops s).Sound tables (written ++ stored ops) := by
  induction ops generalizing s written with
  | nil =>
    have none : written ++ stored [] = written := append_nil written
    rw [none]
    exact sound
  | cons op ops ih =>
    cases op with
    | store d =>
      have split : written ++ stored (.store d :: ops) = (written ++ [d]) ++ stored ops := by
        simp [stored]
      rw [split] at numbers ⊢
      refine ih (sound.store (fun d' hd' => ?_) (wide d (by simp [stored]))) numbers
        fun d' hd' => wide d' (by simp [stored] at hd' ⊢; exact .inr hd')
      rw [← split] at numbers
      exact (pairwise_append.1 numbers).2.2 d' hd' d (by simp [stored])
    | loadById anId =>
      exact ih (sound.of_keeps (@keeps_loadById tables registry s sound.deposits sound.details anId))
        numbers wide
    | loadLast =>
      exact ih (sound.of_keeps (@keeps_loadLast tables registry s sound.deposits sound.details))
        numbers wide
    | reopen => exact ih sound.reopen numbers wide

/-- The deposit that the records of a stored one are read as. -/
def readBack (registry : Registry) (d : Deposit) : Deposit :=
  { Deposit.ofRecord registry (.ofDeposit d) with
    number := d.number
    depositDetails := d.detailRecords.map (.ofRecord registry) }

/-- Among the detail records of deposits with growing numbers, those with the number of
one of them are its own. -/
theorem filter_detailRecords (numbers : written.Pairwise fun a b => a.number < b.number)
    (wide : ∀ d ∈ written, d.number < ulongSize) (hd : d ∈ written) :
    (written.flatMap (·.detailRecords)).filter (fun r => r.number = d.number) =
      d.detailRecords := by
  have number {d' : Deposit} (hd' : d' ∈ written) {r : DepositDetailRecord}
      (hr : r ∈ d'.detailRecords) : r.number = d'.number := by
    obtain ⟨line, -, rfl⟩ := mem_map.1 hr
    exact toULong_of_lt (wide d' hd')
  obtain ⟨before, after, rfl⟩ := append_of_mem hd
  obtain ⟨-, numbers, below⟩ := pairwise_append.1 numbers
  have none (ds : List Deposit) (other : ∀ d' ∈ ds, d' ∈ before ++ d :: after ∧ d'.number ≠ d.number) :
      (ds.flatMap (·.detailRecords)).filter (fun r => r.number = d.number) = [] := by
    rw [filter_eq_nil_iff]
    intro r hr same
    obtain ⟨d', hd', hr⟩ := mem_flatMap.1 hr
    exact (other d' hd').2 ((number (other d' hd').1 hr).symm.trans (of_decide_eq_true same))
  have own : d.detailRecords.filter (fun r => r.number = d.number) = d.detailRecords := by
    rw [filter_eq_self]
    exact fun r hr => decide_eq_true (number hd hr)
  rw [flatMap_append, flatMap_cons, filter_append, filter_append, own,
    none before fun d' hd' => ⟨by simp [hd'], Nat.ne_of_lt (below d' hd' d (by simp))⟩,
    none after fun d' hd' => ⟨by simp [hd'], Nat.ne_of_gt ((pairwise_cons.1 numbers).1 d' hd')⟩]
  simp

theorem Sound.loadById (sound : s.Sound tables written)
    (numbers : written.Pairwise fun a b => a.number < b.number)
    (wide : ∀ d ∈ written, d.number < ulongSize) (hd : d ∈ written)
    (retained : .ofDeposit d ∈ s.deposits.stored) :
    (s.loadById tables registry d.number).1 = some (readBack registry d) := by
  obtain ⟨level, aligned⟩ := sound.aligned
  have number : (DepositRecord.ofDeposit d).number = d.number := toULong_of_lt (wide d hd)
  have keeps := sound.deposits.moves_binarySearch tables.headers tables.headers.idField d.number
  obtain ⟨found, onHit⟩ := sound.deposits.binarySearch_found aligned.wellFormed.sorted d.number
  have hit := found.2 ⟨_, retained, number⟩
  obtain ⟨i, here, r, hr, hid⟩ := onHit hit
  have content := keeps.1.content
  have buffer := here.buffer
  rw [DepositDAO.loadById, MultiPart.findById]
  generalize s.deposits.binarySearch tables.headers tables.headers.idField d.number = step
    at hit content buffer ⊢
  obtain ⟨found, deposits⟩ := step
  obtain rfl : found = true := hit
  -- the record found is the header of the deposit
  have header : deposits.data.buffer = .ofDeposit d := by
    have stored : deposits.stored = s.deposits.content.stored := congrArg Content.stored content
    have same : deposits.data.buffer = r := by
      rw [show deposits.stored[i]? = _ from congrArg (·[i]?) stored, hr] at buffer
      exact (Option.some.inj buffer).symm
    rw [same]
    exact aligned.wellFormed.eq_of_id (mem_of_getElem? hr) retained (hid.trans number.symm)
  have lines : s.details.stored.filter (fun r => r.number = d.number) = d.detailRecords := by
    have all := aligned.filter_stored retained
    rw [show tables.headers.idField.get (.ofDeposit d) = d.number from number] at all
    exact all.trans (filter_detailRecords numbers wide hd)
  have read := @readDetails_eq tables registry
    { Deposit.ofRecord registry deposits.data.buffer with number := deposits.data.buffer.number }
    _ sound.details (aligned.shaped.sorted aligned.ids)
  simp only [header, number, lines] at read
  simp only [getDepositFromRecordSet, header, number, Bool.not_true, Bool.false_eq_true, if_false,
    read]
  rfl

/-- In every state reached by storing deposits of growing numbers, loading deposits
and restarting, a deposit whose header is retained is loaded by its number with all
details that were stored with it. -/
theorem run_loadById (tables : DepositTables) (registry : Registry) (ops : List Op)
    (numbers : (stored ops).Pairwise fun a b => a.number < b.number)
    (wide : ∀ d ∈ stored ops, d.number < ulongSize) :
    let s := run tables registry ops (created tables)
    ∀ d ∈ stored ops, .ofDeposit d ∈ s.deposits.stored →
      (s.loadById tables registry d.number).1 = some (readBack registry d) := by
  intro s d hd retained
  exact ((sound_created tables).run ops numbers wide).loadById numbers wide hd retained

/-- One header in a part and at most two parts of either table. -/
def oneByFile : DepositTables := ⟨some 1, 2, 2, by decide, by decide⟩

/-- A deposit of two notes of 5. -/
def twoNotes (number : Nat) : Deposit :=
  { Deposit.new with
    number := number
    depositDetails := [⟨.validatedCash, 50000000, 2, none, none⟩] }

theorem run_loadById_oneByFile :
    ((run oneByFile ⟨[], [], [], [], [], []⟩ [.store (twoNotes 1), .store (twoNotes 2), .loadLast,
      .reopen, .store (twoNotes 7)] (created oneByFile)).loadById oneByFile ⟨[], [], [], [], [], []⟩
        2).1 = some (readBack ⟨[], [], [], [], [], []⟩ (twoNotes 2)) :=
  run_loadById oneByFile ⟨[], [], [], [], [], []⟩ [.store (twoNotes 1), .store (twoNotes 2),
    .loadLast, .reopen, .store (twoNotes 7)] (by decide) (by decide) (twoNotes 2) (by decide)
    (by decide)

end DepositDAO

end CimArm
