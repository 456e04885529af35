import CimArm.Db.Cursor
import CimArm.Lib.SortedParts

/-!
# Searching a multi-part table by id

The index is searched for the last part whose first id is not above the value,
and that part by binary search.  Over a table whose ids never decrease
(`Content.Sorted`) this finds a record exactly when one has the id, and
`findFirstById` goes back to the first of them.
-/

namespace CimArm

open List

/-- A table whose parts have records, whose rows say the id of the first one, and
whose ids never decrease. -/
structure Content.Sorted {R : Type} (schema : MultiPartSchema R) (c : Content R) : Prop where
  filled : c.Filled
  firstId : ∀ row ∈ c.rows, ∀ r, (c.parts row.tableName).records.head? = some r →
    row.fromId = schema.idField.get r
  ids : c.stored.Pairwise fun a b => schema.idField.get a ≤ schema.idField.get b

namespace MultiPart

variable {R : Type} {schema : MultiPartSchema R} {s s' : MultiPart R}

/-! ## Searching the index -/

/-- The search counts the leading rows not above the value, and leaves the index
on the first one above it, or past the last row with that row read. -/
theorem searchIndex_eq (aValue fuel : Nat) (tableNo : Int) (s : MultiPart R)
    (flag : s.index.feof = false) (notNew : s.index.isNewRecord = false)
    (inside : s.index.pos ≤ s.indexTable.records.length)
    (enough : s.indexTable.records.length - s.index.pos < fuel) :
    let rest := s.indexTable.records.drop s.index.pos
    let n := (rest.takeWhile fun row => row.fromId ≤ aValue).length
    ∃ index, searchIndex aValue fuel tableNo s = (tableNo + n, { s with index := index }) ∧
      index.isNewRecord = false ∧ s.index.pos + n ≤ index.pos ∧
      (index.buffer ∈ rest ∨ rest = [] ∧ index.buffer = s.index.buffer) ∧
      (s.index.pos + n = s.indexTable.records.length →
        index.pos = s.indexTable.records.length ∧
          index.buffer = (rest.getLast?).getD s.index.buffer) := by
  induction fuel generalizing tableNo s with
  | zero => omega
  | succ fuel ih =>
    intro rest n
    rcases Nat.lt_or_ge s.index.pos s.indexTable.records.length with more | atEnd
    · have hrow := List.getElem?_eq_getElem more
      have hrest : rest = s.indexTable.records[s.index.pos] ::
          s.indexTable.records.drop (s.index.pos + 1) := drop_eq_getElem_cons more
      generalize s.indexTable.records[s.index.pos] = row at hrow hrest
      have next := RecordSet.moveNext_read hrow flag
      rw [searchIndex, next]
      by_cases above : row.fromId > aValue
      · have none : n = 0 := by simp [n, hrest, Nat.not_le.2 above]
        refine ⟨.onRecord s.index.pos row, ?_, rfl, ?_, .inl ?_, fun full => ?_⟩
        · rw [none, Nat.cast_zero, add_zero]
          exact if_pos above
        · show s.index.pos + n ≤ s.index.pos + 1
          omega
        · simp [hrest, RecordSet.onRecord]
        · omega
      · obtain ⟨index, e, hnew, reached, hbuffer, last⟩ := ih (tableNo + 1)
          { s with index := .onRecord s.index.pos row } rfl rfl more
          (by show s.indexTable.records.length - (s.index.pos + 1) < fuel; omega)
        simp only [RecordSet.onRecord] at e reached hbuffer last
        have count : n = 1 + ((s.indexTable.records.drop (s.index.pos + 1)).takeWhile
            fun row => row.fromId ≤ aValue).length := by
          simp [n, hrest, Nat.not_lt.1 above, Nat.add_comm]
        refine ⟨index, ?_, hnew, by omega, .inl ?_, fun full => ?_⟩
        · refine (if_neg above).trans ?_
          rw [← RecordSet.onRecord] at e
          rw [e, count]
          simp [Int.add_assoc]
        · rcases hbuffer with hbuffer | ⟨-, hbuffer⟩
          · exact hrest ▸ mem_cons_of_mem _ hbuffer
          · simp [hrest, hbuffer]
        · obtain ⟨hpos, hlast⟩ := last (by omega)
          refine ⟨hpos, hlast.trans ?_⟩
          rw [hrest, List.getLast?_cons]
          rfl
    · have nothing : rest = [] := drop_eq_nil_of_le atEnd
      have none : n = 0 := by simp [n, nothing]
      obtain ⟨missed, -, hpos, hbuffer, hnew⟩ := RecordSet.moveNext_end atEnd
      refine ⟨(s.index.moveNext s.indexTable).2, ?_, hnew notNew, by omega,
        .inr ⟨nothing, hbuffer⟩, fun _ => ⟨by omega, by simp [nothing, hbuffer]⟩⟩
      rw [searchIndex, none, Nat.cast_zero, add_zero]
      simp [missed]

/-! ## Searching a part -/

/-- How many leading parts start at or below the value. -/
def leadingParts (s : MultiPart R) (aValue : Nat) : Nat :=
  (s.indexTable.records.takeWhile fun row => row.fromId ≤ aValue).length

/-- The search of the open part, as `binarySearch` ends. -/
def searchPart (s : MultiPart R) (field : NumField R) (aValue : Nat) : Bool × MultiPart R :=
  let (found, data) := s.data.binarySearch s.dataTable field.get aValue
  if found then (true, ({ s with data := data }).readCurrentData)
  else (false, { s with data := data })

theorem searchPart_fst (s : MultiPart R) (field : NumField R) (aValue : Nat) :
    (s.searchPart field aValue).1 = (s.data.binarySearch s.dataTable field.get aValue).1 := by
  rw [searchPart]
  generalize s.data.binarySearch s.dataTable field.get aValue = step
  obtain ⟨found, data⟩ := step
  cases found <;> rfl

theorem searchPart_snd {field : NumField R} {aValue : Nat}
    (hit : (s.data.binarySearch s.dataTable field.get aValue).1 = true) :
    (s.searchPart field aValue).2 = ({ s with
      data := (s.data.binarySearch s.dataTable field.get aValue).2 }).readCurrentData := by
  rw [searchPart]
  generalize s.data.binarySearch s.dataTable field.get aValue = step at hit ⊢
  obtain ⟨_, data⟩ := step
  obtain rfl := hit
  rfl

theorem Synced.binarySearch_eq (schema : MultiPartSchema R) (sync : s.Synced)
    (nonempty : s.indexTable.records ≠ []) (field : NumField R) (aValue : Nat) :
    ∃ s₁, s.Moves s₁ ∧ s₁.currentTableNumber = (s.leadingParts aValue : Int) - 1 ∧
      s.binarySearch schema field aValue = s₁.searchPart field aValue := by
  have size := length_pos_iff.2 nonempty
  have bound : s.leadingParts aValue ≤ s.indexTable.records.length :=
    (takeWhile_sublist _).length_le
  -- the index is searched from its start
  obtain ⟨index, searched, hnew, reached, hbuffer, last⟩ := searchIndex_eq aValue
    (s.indexTable.records.length + 1) (-1)
    { s with index := { s.index with pos := 0, feof := false } } rfl sync.notNew (Nat.zero_le _)
    (Nat.lt_succ_self _)
  simp only [drop_zero, Nat.zero_add] at searched reached hbuffer last
  rw [← leadingParts] at searched reached last
  have hbuffer : index.buffer ∈ s.indexTable.records :=
    hbuffer.resolve_right fun h => nonempty h.1
  have keeps := @Synced.moves_openDataTable_index R s schema sync index
    ((s.leadingParts aValue : Int) - 1) nonempty (by omega) hnew hbuffer
    fun _ => ⟨by omega, fun init row rows number => by
      have full : s.leadingParts aValue = s.indexTable.records.length := by
        rw [rows, length_append, length_singleton]
        omega
      obtain ⟨hpos, hlast⟩ := last full
      refine ⟨by rw [hpos, rows, length_append, length_singleton], ?_⟩
      simpa [rows] using hlast⟩
  refine ⟨_, keeps, ?_, ?_⟩
  · rw [MultiPart.openDataTable]
    split_ifs with same
    · exact same
    · rfl
  · have number : (-1 : Int) + s.leadingParts aValue = (s.leadingParts aValue : Int) - 1 := by
      omega
    have begun : s.binarySearch schema field aValue =
        (let found := searchIndex aValue (s.indexTable.records.length + 1) (-1)
          { s with index := { s.index with pos := 0, feof := false } }
        (found.2.openDataTable schema found.1).searchPart field aValue) :=
      if_neg (Nat.pos_iff_ne_zero.1 size)
    rw [begun, searched, number]

theorem Synced.moves_binarySearch (schema : MultiPartSchema R) (sync : s.Synced)
    (field : NumField R) (aValue : Nat) : s.Moves (s.binarySearch schema field aValue).2 := by
  by_cases empty : s.indexTable.records = []
  · have stays : s.binarySearch schema field aValue = (false, s.getIndexCount.2) :=
      if_pos (by simp [empty])
    rw [stays]
    exact sync.moves_getIndexCount
  · obtain ⟨s₁, keeps, -, searched⟩ := sync.binarySearch_eq schema empty field aValue
    have moved := keeps.data empty
      (RecordSet.flagSound_binarySearch s₁.dataTable s₁.data field.get aValue)
      (RecordSet.binarySearch_isNewRecord field.get aValue)
    rw [searched, searchPart]
    generalize s₁.data.binarySearch s₁.dataTable field.get aValue = step at moved ⊢
    obtain ⟨found, data⟩ := step
    cases found with
    | true => exact moved.readCurrentData
    | false => exact moved

/-! ## Finding a record by id -/

theorem leading_eq (sorted : s.content.Sorted schema) (aValue : Nat) :
    SortedParts.leading schema.idField.get aValue (s.files.map (·.records)) =
      (s.indexTable.records.takeWhile fun row => row.fromId ≤ aValue).map
        fun row => (s.parts row.tableName).records := by
  have starts (row : IndexRow) (hrow : row ∈ s.indexTable.records) :
      SortedParts.startsBy schema.idField.get aValue (s.parts row.tableName).records =
        decide (row.fromId ≤ aValue) := by
    have filled := sorted.filled row hrow
    have firstId := sorted.firstId row hrow
    cases records : (s.parts row.tableName).records with
    | nil => exact absurd records filled
    | cons r rest =>
      rw [firstId r (by simp [content, records])]
      rfl
  rw [files, map_map]
  exact SortedParts.leading_map starts

theorem stored_eq_flatten (s : MultiPart R) :
    s.content.stored = (s.files.map (·.records)).flatten := by
  rw [Content.stored, flatMap_def]
  rfl

theorem sublist_stored {row : IndexRow} (hrow : row ∈ s.indexTable.records) :
    (s.parts row.tableName).records.Sublist s.content.stored := by
  rw [stored_eq_flatten, files, map_map]
  exact sublist_flatten_of_mem (mem_map_of_mem hrow)

theorem exists_leading (sorted : s.content.Sorted schema) {aValue : Nat}
    (stored : ∃ r ∈ s.content.stored, schema.idField.get r = aValue) :
    ∃ (n : Nat) (row : IndexRow), s.leadingParts aValue = n + 1 ∧
      s.indexTable.records[n]? = some row ∧
      ∃ r ∈ (s.parts row.tableName).records, schema.idField.get r = aValue := by
  have filled : [] ∉ s.files.map (·.records) := by
    rw [files, map_map, mem_map]
    rintro ⟨row, hrow, empty⟩
    exact sorted.filled row hrow empty
  rw [stored_eq_flatten] at stored
  obtain ⟨part, hpart, hr⟩ := (SortedParts.exists_iff filled
    (stored_eq_flatten s ▸ sorted.ids)).1 stored
  rw [leading_eq sorted, List.getLast?_map, Option.map_eq_some_iff] at hpart
  obtain ⟨row, hrow, rfl⟩ := hpart
  obtain ⟨before, leading⟩ := List.getLast?_eq_some_iff.1 hrow
  obtain ⟨after, rows⟩ := takeWhile_prefix (l := s.indexTable.records)
    fun row => decide (row.fromId ≤ aValue)
  rw [leading] at rows
  exact ⟨before.length, row, by simp [leadingParts, leading], by simp [← rows], hr⟩

theorem Synced.binarySearch_found (sync : s.Synced) (sorted : s.content.Sorted schema)
    (aValue : Nat) :
    ((s.binarySearch schema schema.idField aValue).1 = true ↔
      ∃ r ∈ s.content.stored, schema.idField.get r = aValue) ∧
    ((s.binarySearch schema schema.idField aValue).1 = true →
      ∃ i, (s.binarySearch schema schema.idField aValue).2.AtRecord i ∧
        ∃ r, s.content.stored[i]? = some r ∧ schema.idField.get r = aValue) := by
  by_cases empty : s.indexTable.records = []
  · have stays : s.binarySearch schema schema.idField aValue = (false, s.getIndexCount.2) :=
      if_pos (by simp [empty])
    rw [stays]
    simp [Content.stored, Content.files, content, empty]
  · obtain ⟨s₁, keeps, number, searched⟩ := sync.binarySearch_eq schema empty schema.idField aValue
    have indexTable := keeps.1.indexTable
    have parts := keeps.1.parts
    have hcontent := keeps.1.content
    -- whatever part is open, it is a sorted part of the table
    obtain ⟨openRow, hopen, named⟩ := keeps.2.named (indexTable ▸ empty)
    have table : s₁.dataTable = s.parts openRow.tableName := by rw [dataTable, named, parts]
    rw [indexTable] at hopen
    have sub := sublist_stored hopen
    obtain ⟨found, onHit⟩ := RecordSet.binarySearch_eq (t := s₁.dataTable) schema.idField.get aValue
      s₁.data (by rw [table]; exact sorted.ids.sublist sub)
    -- and where a record of the table has the id, it is the one that has it
    have leading (h : ∃ r ∈ s.content.stored, schema.idField.get r = aValue) :
        ∃ (n : Nat) (row : IndexRow), s₁.currentTableNumber = n ∧
          s₁.indexTable.records[n]? = some row ∧ s₁.dataName = row.tableName ∧
          ∃ r ∈ (s.parts row.tableName).records, schema.idField.get r = aValue := by
      obtain ⟨n, row, count, hrow, hr⟩ := exists_leading sorted h
      have number' : s₁.currentTableNumber = n := by omega
      rw [← indexTable] at hrow
      exact ⟨n, row, number', hrow, keeps.2.name n row number' hrow, hr⟩
    have result : (s.binarySearch schema schema.idField aValue).1 =
        (s₁.data.binarySearch s₁.dataTable schema.idField.get aValue).1 := by
      rw [searched, searchPart_fst]
    have within : (s.binarySearch schema schema.idField aValue).1 = true ↔
        ∃ r ∈ s.content.stored, schema.idField.get r = aValue := by
      rw [result, found, table]
      constructor
      · rintro ⟨r, hr, hid⟩
        exact ⟨r, sub.subset hr, hid⟩
      · intro h
        obtain ⟨n, row, -, -, name, hr⟩ := leading h
        rwa [← named, name]
    refine ⟨within, fun hit => ?_⟩
    obtain ⟨n, row, number', hrow, name, -⟩ := leading (within.1 hit)
    obtain ⟨j, r, hr, hid, handle⟩ := onHit (result ▸ hit)
    rw [result] at hit
    have moved : (s.binarySearch schema schema.idField aValue).2 =
        ({ s₁ with data := .onRecord j r } : MultiPart R).readCurrentData := by
      rw [searched, searchPart_snd hit, handle]
    have hr' : (s₁.parts row.tableName).records[j]? = some r := by
      rw [← name]
      exact hr
    rw [moved]
    exact ⟨_, (onRecord_of hrow number' name hr').at_, r,
      hcontent ▸ Content.stored_getElem? (c := s₁.content) hrow hr', hid⟩

/-! ## Going back to the first record -/

theorem Synced.moves_backWhileEqual (schema : MultiPartSchema R) (sync : s.Synced)
    (field : NumField R) (aValue fuel : Nat) :
    s.Moves (s.backWhileEqual schema field aValue fuel) := by
  induction fuel generalizing s with
  | zero => exact sync.moves
  | succ fuel ih =>
    have back := sync.moves_movePrev schema
    rw [backWhileEqual]
    generalize s.movePrev schema = step at back ⊢
    obtain ⟨found, s₁⟩ := step
    cases found with
    | false => exact back
    | true =>
      by_cases differs : field.asLong s₁.data.buffer ≠ aValue
      · simpa [differs] using back
      · simpa [not_not.1 differs] using back.trans (ih back.2)

/-- Going back ends before the first of the records with the value, having passed
only records that have it. -/
theorem AtRecord.backWhileEqual (schema : MultiPartSchema R) (field : NumField R)
    (aValue fuel : Nat) (sync : s.Synced) (filled : s.content.Filled) {i : Nat}
    (here : s.AtRecord i) (enough : i < fuel) :
    ∃ m, m ≤ i ∧
      (∀ j r, m ≤ j → j < i → s.content.stored[j]? = some r → field.asLong r = aValue) ∧
      (m = 0 ∧ (s.backWhileEqual schema field aValue fuel).AtStart ∨
        0 < m ∧ (s.backWhileEqual schema field aValue fuel).AtRecord (m - 1) ∧
          ∀ r, s.content.stored[m - 1]? = some r → field.asLong r ≠ aValue) := by
  induction fuel generalizing s i with
  | zero => omega
  | succ fuel ih =>
    have keeps := sync.moves_movePrev schema
    have hcontent := keeps.1.content
    obtain ⟨inside, first⟩ := here.movePrev schema sync filled
    rw [MultiPart.backWhileEqual]
    generalize s.movePrev schema = step at keeps hcontent inside first ⊢
    obtain ⟨found, s₁⟩ := step
    rcases Nat.eq_zero_or_pos i with rfl | positive
    · obtain ⟨failed, start⟩ := first rfl
      obtain rfl : found = false := failed
      exact ⟨0, Nat.le_refl 0, fun j r _ h => absurd h (Nat.not_lt_zero j), .inl ⟨rfl, start⟩⟩
    · obtain ⟨success, here'⟩ := inside positive
      obtain rfl : found = true := success
      have read : s.content.stored[i - 1]? = some s₁.data.buffer := by
        rw [← hcontent]
        exact here'.buffer
      by_cases differs : field.asLong s₁.data.buffer ≠ aValue
      · refine ⟨i, Nat.le_refl i, fun j r h h' => absurd h' (Nat.not_lt.2 h),
          .inr ⟨positive, by simpa [differs] using here', fun r hr => ?_⟩⟩
        obtain rfl := Option.some.inj (read.symm.trans hr)
        exact differs
      · obtain ⟨m, hm, passed, ended⟩ := ih keeps.2 (hcontent ▸ filled) here' (by omega)
        rw [hcontent] at passed ended
        refine ⟨m, by omega, fun j r hmj hji hr => ?_, by simpa [not_not.1 differs] using ended⟩
        rcases Nat.lt_or_ge j (i - 1) with before | last
        · exact passed j r hmj before hr
        · obtain rfl : j = i - 1 := by omega
          obtain rfl := Option.some.inj (read.symm.trans hr)
          exact not_not.1 differs

theorem AtRecord.backWhileEqual_next (schema : MultiPartSchema R) (field : NumField R)
    (aValue fuel : Nat) (sync : s.Synced) (filled : s.content.Filled) {i : Nat}
    (here : s.AtRecord i) (enough : i < fuel) :
    ∃ m, m ≤ i ∧ ((s.backWhileEqual schema field aValue fuel).moveNext schema).2.AtRecord m ∧
      (∀ j r, m ≤ j → j < i → s.content.stored[j]? = some r → field.asLong r = aValue) ∧
      (0 < m → ∀ r, s.content.stored[m - 1]? = some r → field.asLong r ≠ aValue) := by
  obtain ⟨m, hm, passed, ended⟩ := here.backWhileEqual schema field aValue fuel sync filled enough
  have back := sync.moves_backWhileEqual schema field aValue fuel
  have content := back.1.content
  have inside := here.lt
  rcases ended with ⟨rfl, start⟩ | ⟨positive, at_, differs⟩
  · refine ⟨0, hm, (start.moveNext schema back.2 (content ▸ filled) ?_).2, passed,
      fun positive => absurd positive (Nat.lt_irrefl 0)⟩
    rw [content]
    rintro rows
    simp [Content.stored, Content.files, rows] at inside
  · have next := (at_.moveNext schema back.2 (content ▸ filled)).1 (by rw [content]; omega)
    rw [Nat.sub_add_cancel positive] at next
    exact ⟨m, hm, next.2, passed, fun _ => differs⟩

theorem Synced.moves_findFirstById (schema : MultiPartSchema R) (sync : s.Synced)
    (field : NumField R) (aValue : Nat) : s.Moves (s.findFirstById schema field aValue).2 := by
  have found := sync.moves_binarySearch schema field aValue
  rw [findFirstById]
  generalize s.binarySearch schema field aValue = step at found ⊢
  obtain ⟨hit, s₁⟩ := step
  cases hit with
  | false => exact found
  | true =>
    have back := found.2.moves_backWhileEqual schema field aValue (s₁.stored.length + 1)
    exact found.trans (back.trans (back.2.moves_moveNext schema))

/-- `findFirstById` finds the id exactly when a record has it, and reads the first
of the records that do. -/
theorem Synced.findFirstById_found (sync : s.Synced) (sorted : s.content.Sorted schema)
    (len : schema.idField.len = 4) (aValue : Nat) :
    ((s.findFirstById schema schema.idField aValue).1 = true ↔
      ∃ r ∈ s.content.stored, schema.idField.get r = aValue) ∧
    ((s.findFirstById schema schema.idField aValue).1 = true →
      ∃ m, (s.findFirstById schema schema.idField aValue).2.AtRecord m ∧
        (∀ r, s.content.stored[m]? = some r → schema.idField.get r = aValue) ∧
        ∀ j r, j < m → s.content.stored[j]? = some r → schema.idField.get r < aValue) := by
  have keeps := sync.moves_binarySearch schema schema.idField aValue
  have hcontent := keeps.1.content
  obtain ⟨found, onHit⟩ := sync.binarySearch_found sorted aValue
  rw [findFirstById]
  generalize s.binarySearch schema schema.idField aValue = step at keeps hcontent found onHit ⊢
  obtain ⟨hit, s₁⟩ := step
  cases hit with
  | false =>
    simp only [Bool.false_eq_true, false_iff] at found
    simpa using found
  | true =>
    refine ⟨by simpa using found, fun _ => ?_⟩
    obtain ⟨i, here, r, hr, hid⟩ := onHit rfl
    change s₁.content = s.content at hcontent
    have hi : i < s₁.content.stored.length := by
      rw [hcontent]
      exact (List.getElem?_eq_some_iff.1 hr).1
    obtain ⟨m, hm, at_, passed, differs⟩ := here.backWhileEqual_next schema schema.idField aValue
      (s₁.stored.length + 1) keeps.2 (hcontent ▸ sorted.filled) (Nat.lt_succ_of_lt hi)
    simp only [NumField.asLong_of_len len, hcontent] at passed differs
    -- ids never decrease along the stored records
    have mono (j k : Nat) (a b : R) (hjk : j ≤ k) (ha : s.content.stored[j]? = some a)
        (hb : s.content.stored[k]? = some b) : schema.idField.get a ≤ schema.idField.get b := by
      obtain ⟨hj, rfl⟩ := List.getElem?_eq_some_iff.1 ha
      obtain ⟨hk, rfl⟩ := List.getElem?_eq_some_iff.1 hb
      rcases Nat.eq_or_lt_of_le hjk with rfl | hlt
      · exact Nat.le_refl _
      · exact pairwise_iff_getElem.1 sorted.ids j k hj hk hlt
    refine ⟨m, at_, fun a ha => ?_, fun j a hj ha => ?_⟩
    · rcases Nat.eq_or_lt_of_le hm with rfl | hlt
      · obtain rfl := Option.some.inj (hr.symm.trans ha)
        exact hid
      · exact passed m a (Nat.le_refl m) hlt ha
    · obtain ⟨b, hb⟩ : ∃ b, s.content.stored[m - 1]? = some b :=
        ⟨_, List.getElem?_eq_getElem (by rw [← hcontent]; omega)⟩
      have le := mono j (m - 1) a b (by omega) ha hb
      have le' := mono (m - 1) i b r (by omega) hb hr
      have ne := differs (by omega) b hb
      omega

theorem Synced.moves_forwardWhileLess (schema : MultiPartSchema R) (sync : s.Synced)
    (field : NumField R) (aValue fuel : Nat) :
    s.Moves (s.forwardWhileLess schema field aValue fuel).2 := by
  induction fuel generalizing s with
  | zero => exact sync.moves
  | succ fuel ih =>
    have ended : s.Moves s.eof.2 := sync.moves_getIndexCount
    rw [forwardWhileLess]
    generalize s.eof = step at ended ⊢
    obtain ⟨atEnd, s₁⟩ := step
    cases atEnd with
    | true => exact ended
    | false =>
      have next := ended.2.moves_moveNext schema
      by_cases reached : field.asLong s₁.data.buffer ≥ aValue
      · simpa [reached] using ended
      · simpa [reached] using ended.trans (next.trans (ih next.2))

theorem Synced.moves_findFirstFromId (schema : MultiPartSchema R) (sync : s.Synced)
    (field : NumField R) (aValue : Nat) : s.Moves (s.findFirstFromId schema field aValue).2 := by
  have found := sync.moves_binarySearch schema field aValue
  rw [findFirstFromId]
  generalize s.binarySearch schema field aValue = step at found ⊢
  obtain ⟨hit, s₁⟩ := step
  cases hit with
  | true => exact found
  | false =>
    have first := found.2.moves_moveFirst schema
    simp only [Bool.false_eq_true, if_false]
    generalize s₁.moveFirst schema = step at first ⊢
    obtain ⟨any, s₂⟩ := step
    cases any with
    | false => exact found.trans first
    | true => exact found.trans (first.trans (first.2.moves_forwardWhileLess schema _ _ _))

/-! ## Reading on -/

variable {σ : Type}

theorem Synced.moves_readWhile (schema : MultiPartSchema R) (sync : s.Synced) (more : R → Bool)
    (body : σ → R → σ) (fuel : Nat) (state : σ) :
    s.Moves (s.readWhile schema more body fuel state).2 := by
  induction fuel generalizing s state with
  | zero => exact sync.moves
  | succ fuel ih =>
    have ended : s.Moves s.eof.2 := sync.moves_getIndexCount
    rw [readWhile]
    generalize s.eof = step at ended ⊢
    obtain ⟨atEnd, s₁⟩ := step
    have next := ended.2.moves_moveNext schema
    cases stop : atEnd || !more s₁.data.buffer with
    | true => simpa [stop] using ended
    | false => simpa [stop] using ended.trans (next.trans (ih next.2 _))

theorem readWhile_eof (schema : MultiPartSchema R) (more : R → Bool) (body : σ → R → σ) (fuel : Nat)
    (state : σ) (ended : s.eof.1 = true) : (s.readWhile schema more body fuel state).1 = state := by
  cases fuel with
  | zero => rfl
  | succ fuel => simp [MultiPart.readWhile, ended]

/-- From a record on, the loop runs over the stored records as long as they satisfy
its condition. -/
theorem AtRecord.readWhile (schema : MultiPartSchema R) (more : R → Bool) (body : σ → R → σ)
    (fuel : Nat) (state : σ) (sync : s.Synced) (filled : s.content.Filled) {i : Nat}
    (here : s.AtRecord i) (enough : s.content.stored.length < i + fuel) :
    (s.readWhile schema more body fuel state).1 =
      ((s.content.stored.drop i).takeWhile more).foldl body state := by
  induction fuel generalizing s i state with
  | zero => exact absurd here.lt (by omega)
  | succ fuel ih =>
    obtain ⟨next, step, last⟩ := here.ahead schema sync filled
    have content := next.1.content
    rw [MultiPart.readWhile, here.eof_eq, here.drop_eq]
    simp only [getIndexCount_buffer, Bool.false_or]
    cases stop : more s.data.buffer with
    | false => simp [stop]
    | true =>
      rw [takeWhile_cons_of_pos stop, foldl_cons]
      simp only [Bool.not_true, Bool.false_eq_true, if_false]
      rcases Nat.lt_or_ge (i + 1) s.content.stored.length with more' | final
      · have := ih (body state s.data.buffer) next.2 (content ▸ filled) (step more')
          (by rw [content]; omega)
        rw [this, content]
      · rw [readWhile_eof schema more body fuel _ (last final), drop_eq_nil_of_le final]
        rfl

/-- Going to the first record with an id and reading on while the id stays reads the
records with it, in stored order. -/
theorem Synced.findFirstById_readWhile (sync : s.Synced) (sorted : s.content.Sorted schema)
    (len : schema.idField.len = 4) (aValue : Nat) (body : σ → R → σ) (state : σ) :
    (if (s.findFirstById schema schema.idField aValue).1 then
      ((s.findFirstById schema schema.idField aValue).2.readWhile schema
        (fun r => schema.idField.get r = aValue) body (s.content.stored.length + 1) state).1
    else state) =
      (s.content.stored.filter fun r => schema.idField.get r = aValue).foldl body state := by
  obtain ⟨found, onHit⟩ := sync.findFirstById_found sorted len aValue
  have keeps := sync.moves_findFirstById schema schema.idField aValue
  have content := keeps.1.content
  split_ifs with hit
  · obtain ⟨m, here, first, below⟩ := onHit hit
    rw [here.readWhile schema _ body _ state keeps.2 (content ▸ sorted.filled)
      (by rw [content]; omega), content,
      SortedParts.takeWhile_drop_eq_filter sorted.ids below first]
  · have none : (s.content.stored.filter fun r => schema.idField.get r = aValue) = [] := by
      rw [filter_eq_nil_iff]
      intro r hr same
      exact hit (found.2 ⟨r, hr, of_decide_eq_true same⟩)
    rw [none]
    rfl

end MultiPart

end CimArm
