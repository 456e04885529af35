import CimArm.Dao.ZCloseDAO
import CimArm.Db.Scan
import CimArm.Lib.Trace
import CimArm.Lib.Watermark

/-!
# Requests for records not transferred yet

Deposits, extractions, Z closes and cash closes are sent by number.  A request reads the
last number transferred, searches the record with the next number, writes the records from
there on to a file, up to a size, sends the file and stores the number of the last record
it wrote.  Where there is no record with the next number it compares that number with a
first record: of the table, or of the Z closes.

* `generateRequestDataFile_spec`: what a request writes, where the first record tells
  what it is compared for.
-/

namespace CimArm.GetDataFile

open MultiPart List

variable {R : Type}

/-! ## The requests -/

/-- A kind of records that is sent by number, and how a request goes about it. -/
structure NumberedRequest (R : Type) : Type where
  schema : MultiPartSchema R
  /-- The test of `CLOSE_TYPE`, where the table has closes. -/
  wanted : R → Bool
  /-- The loop stops above `to`, also when the filter is `NOT_TRANSFER_INFO_FILTER`. -/
  limited : Bool
  find : Nat → MultiPart R → Bool × MultiPart R
  moveFirst : MultiPart R → MultiPart R
  /-- The bytes that a record is formatted to. -/
  format : R → Nat
  maxFileSize : Nat

def MAX_DEPOSITS_FILE_SIZE : Nat := 103000
def MAX_EXTRACTIONS_FILE_SIZE : Nat := 200000
def MAX_XCLOSE_FILE_SIZE : Nat := 45000
def MAX_ZCLOSE_FILE_SIZE : Nat := 34000

/-- The records of the table `deposits`, with `NUMBER` as id. -/
def getDepositsRequest (schema : MultiPartSchema R) (formatDeposit : R → Nat) :
    NumberedRequest R where
  schema := schema
  wanted := fun _ => true
  limited := true
  find aValue rs := rs.findById schema schema.idField aValue
  moveFirst rs := (rs.moveFirst schema).2
  format := formatDeposit
  maxFileSize := MAX_DEPOSITS_FILE_SIZE

/-- The records of the table `extractions`, with `NUMBER` as id. -/
def getExtractionsRequest (schema : MultiPartSchema R) (formatExtraction : R → Nat) :
    NumberedRequest R where
  schema := schema
  wanted := fun _ => true
  limited := true
  find aValue rs := rs.findById schema schema.idField aValue
  moveFirst rs := (rs.moveFirst schema).2
  format := formatExtraction
  maxFileSize := MAX_EXTRACTIONS_FILE_SIZE

/-- The search of a close by its number gives up at a lower number of its kind. -/
def findCloseById (table : ZCloseTable) (closeType : CloseType) (anId : Nat)
    (aRecordSet : MultiPart ZCloseRecord) : Bool × MultiPart ZCloseRecord :=
  let (found, aRecordSet) := aRecordSet.findLast table.schema fun r =>
    if r.closeType = closeType then
      if r.number = anId then some true
      else if r.number < anId then some false
      else none
    else none
  (found.isSome, aRecordSet)

def findCashCloseById (table : ZCloseTable) := findCloseById table .cashClose

def findZCloseById (table : ZCloseTable) := findCloseById table .endOfDay

def moveFirstZClose (table : ZCloseTable) (aRecordSet : MultiPart ZCloseRecord) :
    MultiPart ZCloseRecord :=
  let aRecordSet := (aRecordSet.moveFirst table.schema).2
  aRecordSet.forwardUntil table.schema ZCloseDAO.isZClose (aRecordSet.stored.length + 1)

def getXCloseRequest (table : ZCloseTable) (formatXClose : ZCloseRecord → Nat) :
    NumberedRequest ZCloseRecord where
  schema := table.schema
  wanted := ZCloseDAO.isCashClose
  limited := false
  find := findCashCloseById table
  moveFirst rs := (rs.moveFirst table.schema).2
  format := formatXClose
  maxFileSize := MAX_XCLOSE_FILE_SIZE

def getZCloseRequest (table : ZCloseTable) (formatZClose : ZCloseRecord → Nat) :
    NumberedRequest ZCloseRecord where
  schema := table.schema
  wanted := ZCloseDAO.isZClose
  limited := false
  find := findZCloseById table
  moveFirst := moveFirstZClose table
  format := formatZClose
  maxFileSize := MAX_ZCLOSE_FILE_SIZE

/-! ## Writing the file -/

/-- `maxFileSize` 0 is no limit. -/
def reachMaxFileSize (aSize aMaxFileSize : Nat) : Bool := aMaxFileSize ≠ 0 ∧ aMaxFileSize < aSize

/-- A new record set over the files of a table. -/
def getNewRecordSet (schema : MultiPartSchema R) (table : MultiPart R) : MultiPart R :=
  MultiPart.open schema table.parts table.indexTable

/-- The file that is written, its size and the number of the last record. -/
structure DataFile (R : Type) : Type where
  records : List R
  fileSize : Nat
  last : Nat

namespace NumberedRequest

variable (req : NumberedRequest R)

def number : R → Nat := req.schema.idField.get

/-- The number is not past `to`, where that is looked at. -/
def Within (aTo : Int) (r : R) : Prop := req.limited = true → toLong (req.number r) ≤ aTo

instance (aTo : Int) (r : R) : Decidable (req.Within aTo r) :=
  inferInstanceAs (Decidable (_ → _))

/-- The body of the loop. Whether a record can be written may change from one to the next. -/
def visit (writes : Nat → Bool) (aTo : Int) (file : DataFile R) (r : R) : Visit (DataFile R) :=
  if req.wanted r then
    if ¬ req.Within aTo r then .stop file
    else
      let file := { file with last := req.number r }
      let n := req.format r
      if n ≠ 0 then
        if writes file.records.length then
          let file := { file with
            records := file.records ++ [r], fileSize := toULong (file.fileSize + n) }
          if reachMaxFileSize file.fileSize req.maxFileSize then .stop file else .next file
        else .raise
      else .next file
  else .next file

/-- The loop from the current record on. -/
def writeFrom (writes : Nat → Bool) (aTo : Int) (lastNumberTransfered : Nat) (rs : MultiPart R) :
    Option (DataFile R) :=
  rs.scan (MultiPart.moveNext req.schema) (req.visit writes aTo) (rs.stored.length + 1)
    ⟨[], 0, lastNumberTransfered⟩

/-- The file of a request for the records not transferred yet, from the record after the last
one transferred; nothing after an exception. -/
def generateRequestDataFile (table : MultiPart R) (writes : Nat → Bool) (aTo : Int)
    (lastNumberTransfered : Nat) : Option (DataFile R) :=
  let (found, rs) := req.find (toULong (lastNumberTransfered + 1))
    ((getNewRecordSet req.schema table).moveFirst req.schema).2
  if found then req.writeFrom writes aTo lastNumberTransfered rs
  else
    let (atEnd, rs) := (req.moveFirst rs).eof
    if atEnd || decide (req.number rs.data.buffer ≤ toULong (lastNumberTransfered + 1)) then
      some ⟨[], 0, lastNumberTransfered⟩
    else req.writeFrom writes aTo lastNumberTransfered rs

/-! ## What the loop writes -/

variable {req} {writes : Nat → Bool} {aTo : Int}

theorem scanRows_visit (formats : ∀ r, 0 < req.format r) (rs : List R) (file : DataFile R)
    {file' : DataFile R} (run : scanRows (req.visit writes aTo) rs file = some file') :
    ∃ l, l <+: rs.filter req.wanted ∧ file'.records = file.records ++ l ∧
      file'.last = (l.getLast?.map req.number).getD file.last ∧ (∀ r ∈ l, req.Within aTo r) ∧
      (l = [] → ∀ r, (rs.filter req.wanted).head? = some r → ¬ req.Within aTo r) := by
  induction rs generalizing file with
  | nil =>
    obtain rfl := Option.some.inj run
    exact ⟨[], nil_prefix, (append_nil _).symm, rfl,
      fun _ none => absurd none not_mem_nil, fun _ _ none => absurd none (Option.some_ne_none _).symm⟩
  | cons r rs ih =>
    rw [scanRows, visit] at run
    by_cases wanted : req.wanted r = true
    · rw [if_pos wanted] at run
      rw [filter_cons_of_pos wanted]
      by_cases within : req.Within aTo r
      · rw [if_neg (not_not.2 within)] at run
        dsimp only at run
        rw [if_pos (Nat.pos_iff_ne_zero.1 (formats r))] at run
        cases written : writes file.records.length with
        | false =>
          rw [written] at run
          cases run
        | true =>
          rw [written, if_pos rfl] at run
          by_cases cut : reachMaxFileSize (toULong (file.fileSize + req.format r))
              req.maxFileSize = true
          · rw [if_pos cut] at run
            obtain rfl := Option.some.inj run
            exact ⟨[r], prefix_append [r] _, rfl, rfl,
              fun a ha => mem_singleton.1 ha ▸ within,
              fun none => absurd none (cons_ne_nil _ _)⟩
          · rw [if_neg cut] at run
            obtain ⟨l, starts, records, last, all, -⟩ := ih _ run
            refine ⟨r :: l, prefix_cons_inj r |>.2 starts, ?_, ?_, ?_,
              fun none => absurd none (cons_ne_nil _ _)⟩
            · rw [records, append_assoc, singleton_append]
            · rw [last, List.getLast?_cons]
              cases l.getLast? <;> rfl
            · exact forall_mem_cons.2 ⟨within, all⟩
      · rw [if_pos within] at run
        obtain rfl := Option.some.inj run
        exact ⟨[], nil_prefix, (append_nil _).symm, rfl,
          fun _ none => absurd none not_mem_nil,
          fun _ a first => Option.some.inj first ▸ within⟩
    · rw [if_neg wanted] at run
      rw [filter_cons_of_neg wanted]
      exact ih file run

/-! ## What a request writes -/

/-- A table whose records wanted have numbers that increase. -/
structure InOrder (req : NumberedRequest R) (c : Content R) : Prop where
  shaped : c.Shaped req.schema
  increasing : c.stored.Pairwise fun a b =>
    req.wanted a = true → req.wanted b = true → req.number a < req.number b

/-- The search finds a record wanted by its number, and where it finds none the cursor is
put on some first record, before those wanted. -/
structure Lawful (req : NumberedRequest R) (first : List R → Option R) : Prop where
  formats : ∀ r, 0 < req.format r
  noAuto : req.schema.autoIncField = none
  two_le : 2 ≤ req.schema.maxFiles
  find : ∀ {s : MultiPart R}, s.Synced → req.InOrder s.content → ∀ n,
    s.Keeps (req.find n s).2 ∧
    ((∃ r ∈ s.content.stored, req.wanted r = true ∧ req.number r = n) →
      (req.find n s).1 = true) ∧
    ((req.find n s).1 = true → ∃ i r, (req.find n s).2.AtRecord i ∧
      s.content.stored[i]? = some r ∧ req.wanted r = true ∧ req.number r = n)
  moveFirst : ∀ {s : MultiPart R}, s.Synced → req.InOrder s.content →
    s.Keeps (req.moveFirst s) ∧
    ((∃ i r, (req.moveFirst s).AtRecord i ∧ s.content.stored[i]? = some r ∧
        first s.content.stored = some r ∧ ∀ a ∈ s.content.stored.take i, req.wanted a = false) ∨
      (req.moveFirst s).eof.1 = true ∧ first s.content.stored = none)
  first_none : ∀ {rows : List R}, first rows = none → ∀ r ∈ rows, req.wanted r = false

/-- The first record tells where to start: the next number is there, or the first record is
above it and nothing wanted is old, or it is not and nothing is to be sent. Numbers are
those of a `long`. -/
structure Meets (req : NumberedRequest R) (first : List R → Option R) (rows : List R)
    (aTo : Int) (last : Nat) : Prop where
  last_lt : last < 2 ^ 31
  number_lt : ∀ r ∈ rows, req.number r < 2 ^ 31
  next : (∃ r ∈ rows, req.wanted r = true ∧ req.number r = last + 1) ∨
    ∀ r, first rows = some r →
      (last + 1 < req.number r → ∀ a ∈ rows, req.wanted a = true → last < req.number a) ∧
      (req.number r ≤ last + 1 →
        ∀ a ∈ rows, req.wanted a = true → req.Within aTo a → req.number a ≤ last)

/-- The file of a request that meets the condition has the records after the last number
transferred, up to its own last number, and has some if there are any. -/
structure Writes (req : NumberedRequest R) (rows : List R) (aTo : Int) (last : Nat)
    (file : DataFile R) : Prop where
  records : file.records = Watermark.between req.number req.wanted rows last file.last
  le : last ≤ file.last
  reached : file.last = last ∨ ∃ r ∈ rows, req.wanted r = true ∧ req.number r = file.last
  last_eq : file.last = (file.records.getLast?.map req.number).getD last
  some_new : (∃ r ∈ rows, req.wanted r = true ∧ last < req.number r ∧ req.Within aTo r) →
    file.records ≠ []

section

variable {first : List R → Option R} {rows : List R} {last : Nat}

theorem Writes.nothing
    (none : ∀ a ∈ rows, req.wanted a = true → req.Within aTo a → req.number a ≤ last) :
    req.Writes rows aTo last ⟨[], 0, last⟩ where
  records := Watermark.between_self.symm
  le := Nat.le_refl _
  reached := .inl rfl
  last_eq := rfl
  some_new := fun ⟨r, hr, want, low, within⟩ =>
    absurd low (Nat.not_lt.2 (none r hr want within))

theorem Within.mono {a b : R} (small : req.number b < 2 ^ 31)
    (le : req.number a ≤ req.number b) (within : req.Within aTo b) : req.Within aTo a := by
  intro limited
  have upper := within limited
  rw [toLong_of_range (by omega) (by omega)] at upper ⊢
  omega

theorem Writes.scan (formats : ∀ r, 0 < req.format r)
    (increasing : rows.Pairwise fun a b =>
      req.wanted a = true → req.wanted b = true → req.number a < req.number b)
    (small : ∀ r ∈ rows, req.number r < 2 ^ 31) (i : Nat)
    (below : ∀ r ∈ rows.take i, req.wanted r = true → req.number r ≤ last)
    (above : ∀ r ∈ rows.drop i, req.wanted r = true → last < req.number r)
    {file : DataFile R}
    (run : scanRows (req.visit writes aTo) (rows.drop i) ⟨[], 0, last⟩ = some file) :
    req.Writes rows aTo last file := by
  obtain ⟨l, starts, records, last_eq, within, stops⟩ := scanRows_visit formats _ _ run
  obtain rfl : file.records = l := records
  have ahead (r : R) (hr : r ∈ file.records) : r ∈ rows.drop i ∧ req.wanted r = true :=
    mem_filter.1 (starts.subset hr)
  have ordered : ((rows.drop i).filter req.wanted).Pairwise fun a b =>
      req.number a < req.number b := by
    have sub : ((rows.drop i).filter req.wanted).Sublist rows :=
      filter_sublist.trans (drop_sublist i rows)
    refine List.Pairwise.imp_of_mem (fun ha hb increases => ?_) (increasing.sublist sub)
    exact increases (mem_filter.1 ha).2 (mem_filter.1 hb).2
  have between := Watermark.prefix_eq_between below above ordered starts
  rw [take_append_drop, ← last_eq] at between
  obtain ⟨le, reached⟩ := Watermark.last_or
    (l := file.records) fun r hr => above r (ahead r hr).1 (ahead r hr).2
  rw [← last_eq] at le reached
  refine ⟨between, le, reached.imp_right ?_, last_eq, ?_⟩
  · rintro ⟨r, hr, same⟩
    exact ⟨r, mem_of_mem_drop (ahead r hr).1, (ahead r hr).2, same⟩
  · rintro ⟨r, hr, want, low, inside⟩ none
    have later : r ∈ (rows.drop i).filter req.wanted := by
      rw [← take_append_drop i rows] at hr
      rcases mem_append.1 hr with before | after
      · exact absurd low (Nat.not_lt.2 (below r before want))
      · exact mem_filter.2 ⟨after, want⟩
    cases head : (rows.drop i).filter req.wanted with
    | nil =>
      rw [head] at later
      cases later
    | cons a rest =>
      rw [head] at later ordered
      refine stops none a (by rw [head]; rfl) ?_
      refine Within.mono (small r hr) ?_ inside
      rcases mem_cons.1 later with rfl | more
      · exact Nat.le_refl _
      · exact Nat.le_of_lt ((pairwise_cons.1 ordered).1 r more)

theorem generateRequestDataFile_spec (lawful : req.Lawful first) {table : MultiPart R}
    (inOrder : req.InOrder table.content)
    (meets : req.Meets first table.content.stored aTo last) {file : DataFile R}
    (run : req.generateRequestDataFile table writes aTo last = some file) :
    req.Writes table.content.stored aTo last file := by
  obtain ⟨rows, rows_eq⟩ : ∃ rows, rows = table.content.stored := ⟨_, rfl⟩
  have increasing := inOrder.increasing
  have filled : table.content.Filled := fun row hrow =>
    (inOrder.shaped.describes row hrow).nonempty
  obtain ⟨sync, content⟩ := synced_open req.schema table.parts table.indexTable
    inOrder.shaped.count fun empty => inOrder.shaped.fresh 0 (by simp [MultiPart.content, empty])
  change (getNewRecordSet req.schema table).Synced at sync
  change (getNewRecordSet req.schema table).content = table.content at content
  have opened := sync.moves_moveFirst req.schema
  have content₁ := opened.1.content.trans content
  have small : last + 1 < ulongSize := by
    have := meets.last_lt
    rw [ulongSize]
    omega
  rw [generateRequestDataFile, toULong_of_lt small] at run
  obtain ⟨found_keeps, finds, found⟩ := lawful.find opened.2 (content₁.symm ▸ inOrder) (last + 1)
  rw [content₁] at finds found
  generalize req.find (last + 1) ((getNewRecordSet req.schema table).moveFirst req.schema).2 = step
    at run found_keeps finds found
  obtain ⟨hit, s₁⟩ := step
  have content₂ : s₁.content = table.content := found_keeps.1.content.trans content₁
  -- the loop from the record at a place
  have loop : ∀ (s : MultiPart R) (i : Nat), s.Synced → s.content = table.content →
      s.AtRecord i → (∀ r ∈ rows.take i, req.wanted r = true → req.number r ≤ last) →
      (∀ r ∈ rows.drop i, req.wanted r = true → last < req.number r) →
      req.writeFrom writes aTo last s = some file → req.Writes rows aTo last file := by
    intro s i sync same here below above run
    have length : s.stored.length = s.content.stored.length := rfl
    have scanned := AtRecord.scan (req.visit writes aTo) (s.stored.length + 1) ⟨[], 0, last⟩
      (advances_moveNext req.schema (same ▸ filled) i) sync here (by omega)
    rw [writeFrom, scanned, same, ← rows_eq] at run
    exact Writes.scan lawful.formats (rows_eq ▸ increasing) (rows_eq ▸ meets.number_lt) i below
      above run
  rw [← rows_eq]
  cases hit with
  | true =>
    obtain ⟨i, r, here, at_, want, number⟩ := found rfl
    rw [← rows_eq] at at_
    obtain ⟨lt, read⟩ := List.getElem?_eq_some_iff.1 at_
    have mono := pairwise_iff_getElem.1 (rows_eq ▸ increasing)
    refine loop s₁ i found_keeps.2 content₂ here (fun a ha wanted => ?_) (fun a ha wanted => ?_) run
    · obtain ⟨j, hj, rfl⟩ := mem_take_iff_getElem.1 ha
      have before := mono j i (by omega) lt (by omega) wanted (read.symm ▸ want)
      rw [read, number] at before
      exact Nat.le_of_lt_succ before
    · obtain ⟨j, hj, rfl⟩ := mem_drop_iff_getElem.1 ha
      rcases Nat.eq_zero_or_pos j with rfl | positive
      · simp only [Nat.add_zero]
        rw [read, number]
        exact Nat.lt_succ_self last
      · have after := mono i (i + j) lt (by omega) (by omega) (read.symm ▸ want) wanted
        rw [read, number] at after
        exact Nat.lt_of_succ_lt after
  | false =>
    have next : ∀ r, first rows = some r →
        (last + 1 < req.number r → ∀ a ∈ rows, req.wanted a = true → last < req.number a) ∧
        (req.number r ≤ last + 1 →
          ∀ a ∈ rows, req.wanted a = true → req.Within aTo a → req.number a ≤ last) := by
      rcases meets.next with there | otherwise
      · cases finds there
      · exact rows_eq ▸ otherwise
    obtain ⟨keeps, places⟩ := lawful.moveFirst found_keeps.2 (content₂.symm ▸ inOrder)
    have content₃ := keeps.1.content.trans content₂
    rw [content₂, ← rows_eq] at places
    simp only [Bool.false_eq_true, if_false] at run
    rcases places with ⟨i, r, here, at_, isFirst, none⟩ | ⟨exhausted, isNone⟩
    · have ended := keeps.2.moves_getIndexCount
      have read : (req.moveFirst s₁).content.stored[i]? = some (req.moveFirst s₁).data.buffer :=
        here.buffer
      rw [here.eof_eq] at run
      rw [content₃, ← rows_eq] at read
      obtain rfl : r = (req.moveFirst s₁).data.buffer := Option.some.inj (at_.symm.trans read)
      rw [Bool.false_or, getIndexCount_buffer] at run
      obtain ⟨above, below⟩ := next _ isFirst
      by_cases reached : req.number (req.moveFirst s₁).data.buffer ≤ last + 1
      · rw [if_pos (decide_eq_true reached)] at run
        obtain rfl := Option.some.inj run
        exact Writes.nothing (below reached)
      · rw [if_neg (mt of_decide_eq_true reached)] at run
        refine loop _ i ended.2 content₃ here.eof_at (fun a ha wanted => ?_)
          (fun a ha => above (Nat.lt_of_not_le reached) a (mem_of_mem_drop ha)) run
        exact absurd wanted (Bool.not_eq_true _ ▸ none a ha)
    · generalize (req.moveFirst s₁).eof = step at run exhausted
      obtain ⟨atEnd, s₂⟩ := step
      obtain rfl : atEnd = true := exhausted
      obtain rfl := Option.some.inj run
      exact Writes.nothing fun a ha want =>
        absurd want (Bool.not_eq_true _ ▸ lawful.first_none isNone a ha)

end

end NumberedRequest

end CimArm.GetDataFile
