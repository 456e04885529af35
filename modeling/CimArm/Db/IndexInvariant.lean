import CimArm.Db.DateSearch
import Mathlib.Data.List.Nodup

/-!
# The index invariant of a multi-part table

`Content.IndexInvariant` is what the index says about the part files.  Saving a
record keeps it (`Content.WellFormed.store`) as long as the table may have two
parts and the id of the record follows those stored: the next auto-increment
value, or in a table without one the value the caller saves.  Runs of the
operations of a client, closed and opened again at any point, keep it too.
-/

namespace CimArm

open List Function

theorem truncDateTime_truncDateTime (date : Nat) :
    truncDateTime (truncDateTime date) = truncDateTime date := by
  unfold truncDateTime
  omega

namespace Content

variable {R : Type} (schema : MultiPartSchema R) (c : Content R)

/-- What a row says about the records of its part: there are some, and their first
id and their days are those of the row. -/
structure Describes (row : IndexRow) (records : List R) : Prop where
  nonempty : records ≠ []
  firstId : ∀ r, records.head? = some r → row.fromId = schema.idField.get r
  days : ∀ date, schema.dateField = some date → ∀ r ∈ records,
    row.fromDate ≤ truncDateTime (date r) ∧ truncDateTime (date r) ≤ row.toDate

/-- What the parts owe to saving, whatever the ids: besides what the index says, the
days are whole and the files after the last part are new. -/
structure Shaped : Prop where
  names : c.rows.Pairwise fun a b => a.tableName < b.tableName
  describes : ∀ row ∈ c.rows, Describes schema row (c.parts row.tableName).records
  count : c.rows.length ≤ schema.maxFiles
  whole : ∀ row ∈ c.rows, truncDateTime row.fromDate = row.fromDate ∧
    truncDateTime row.toDate = row.toDate
  fresh : ∀ n, (∀ row ∈ c.rows, row.tableName < n) → (c.parts n).records = []

/-- A shaped table whose ids grow, and whose last part keeps the id of its last
record. -/
structure WellFormed : Prop extends Shaped schema c where
  ids : c.stored.Pairwise fun a b => schema.idField.get a < schema.idField.get b
  autoInc : schema.autoIncField.isSome → ∀ last r, c.rows.getLast? = some last →
    (c.parts last.tableName).records.getLast? = some r →
      (c.parts last.tableName).autoIncValue = schema.idField.get r

/-- The records of some rows, in stored order. -/
def storedIn (rows : List IndexRow) : List R :=
  rows.flatMap fun row => (c.parts row.tableName).records

/-- The rows that stay when a record is saved. -/
def staying (cut : Bool) : List IndexRow :=
  if c.rotates schema cut then c.kept schema else c.rows

/-- The auto-increment value that a record saved next takes over. -/
def lastAutoInc : Nat :=
  match c.rows.getLast? with
  | some last => (c.parts last.tableName).autoIncValue
  | none => (c.parts 0).autoIncValue

/-- The suffix of the part after the last one. -/
def nextName : Nat :=
  match c.rows.getLast? with
  | some last => last.tableName + 1
  | none => 0

/-- The record that reaches the file when `r` is saved next. -/
def newRecord (r : R) : R := Table.written schema.toSchema ⟨[], c.lastAutoInc⟩ r

variable {schema} {c}

theorem storedIn_rows : c.storedIn c.rows = c.stored := by
  rw [stored, files, flatMap_map]
  rfl

theorem storedIn_append (rows rows' : List IndexRow) :
    c.storedIn (rows ++ rows') = c.storedIn rows ++ c.storedIn rows' :=
  flatMap_append

/-! ## What saving a record does -/

@[simp] theorem widenTo_tableName (row : IndexRow) (r : R) :
    (widenTo schema row r).tableName = row.tableName := by
  rw [widenTo]
  split <;> rfl

theorem kept_suffix (schema : MultiPartSchema R) (c : Content R) :
    c.kept schema <:+ c.rows :=
  drop_suffix _ _

theorem kept_getLast? (two : 2 ≤ schema.maxFiles) (nonempty : c.rows ≠ []) :
    (c.kept schema).getLast? = c.rows.getLast? := by
  have size := length_pos_iff.2 nonempty
  rw [kept, List.getLast?_drop, if_neg]
  unfold toDelete
  split <;> omega

theorem kept_length (two : 2 ≤ schema.maxFiles) (count : c.rows.length ≤ schema.maxFiles) :
    (c.kept schema).length + 1 ≤ schema.maxFiles := by
  rw [kept, length_drop, toDelete]
  split <;> omega

/-- The auto-increment value kept for the part that a record was saved to. -/
def newAutoInc (schema : MultiPartSchema R) (c : Content R) : Nat :=
  if schema.autoIncField.isSome then (c.lastAutoInc + 1) % ulongSize else c.lastAutoInc

variable {row : IndexRow} {a : R}

theorem Shaped.lt_nextName (wf : c.Shaped schema) (hrow : row ∈ c.rows) :
    row.tableName < c.nextName := by
  rcases c.rows.eq_nil_or_concat with rows | ⟨init, last, rows⟩
  · simp [rows] at hrow
  · rw [concat_eq_append] at rows
    have next : c.nextName = last.tableName + 1 := by simp [nextName, rows]
    rw [next]
    rw [rows, mem_append, mem_singleton] at hrow
    rcases hrow with hrow | rfl
    · have := (pairwise_append.1 (rows ▸ wf.names)).2.2 row hrow last (by simp)
      omega
    · omega

/-- Saving a record starts a new part after the rows that stay, or adds to the last one. -/
theorem store_cases (two : 2 ≤ schema.maxFiles) (wf : c.Shaped schema) (cut : Bool) (r : R) :
    ((c.rows = [] ∨ c.rotates schema cut = true) ∧ c.staying schema cut = c.kept schema ∧
      c.store schema cut r =
        ⟨Function.update c.parts c.nextName ⟨[c.newRecord schema r], c.newAutoInc schema⟩,
          c.staying schema cut ++ [newRow schema c.nextName (c.newRecord schema r)]⟩) ∨
    (∃ init last, c.rows = init ++ [last] ∧ c.rotates schema cut = false ∧
      c.staying schema cut = c.rows ∧
      c.store schema cut r =
        ⟨Function.update c.parts last.tableName
            ⟨(c.parts last.tableName).records ++ [c.newRecord schema r],
              c.newAutoInc schema⟩,
          init ++ [widenTo schema last (c.newRecord schema r)]⟩) := by
  have records := wf.fresh c.nextName fun row hrow => wf.lt_nextName hrow
  rcases c.rows.eq_nil_or_concat with rows | ⟨init, last, rows⟩
  · refine .inl ⟨.inl rows, by simp [staying, rotates, kept, rows], ?_⟩
    have next : c.nextName = 0 := by simp [nextName, rows]
    rw [next] at records ⊢
    simp only [store, rows, List.getLast?_nil, addPart, Table.append, records, staying, rotates,
      newRecord, newAutoInc, lastAutoInc]
    rfl
  · rw [concat_eq_append] at rows
    have getLast : c.rows.getLast? = some last := by simp [rows]
    have inc : c.lastAutoInc = (c.parts last.tableName).autoIncValue := by
      simp [lastAutoInc, getLast]
    cases rotates : c.rotates schema cut with
    | true =>
      have keptLast := (kept_getLast? two (by simp [rows])).trans getLast
      have next : c.nextName = last.tableName + 1 := by simp [nextName, getLast]
      refine .inl ⟨.inr rfl, by simp [staying, rotates], ?_⟩
      rw [next] at records ⊢
      simp only [store, getLast, rotates, if_true, rotate, keptLast, addPart, Table.append, records,
        staying, newRecord, newAutoInc, inc]
      rfl
    | false =>
      refine .inr ⟨init, last, rows, rfl, by simp [staying, rotates], ?_⟩
      have dropLast : c.rows.dropLast = init := by simp [rows]
      simp only [store, getLast, rotates, Bool.false_eq_true, if_false, extend, dropLast,
        Table.append, newRecord, newAutoInc, inc]
      rfl

theorem storedIn_addRow {rows : List IndexRow} (table : Table R)
    (other : ∀ row' ∈ rows, row'.tableName ≠ row.tableName) :
    (⟨Function.update c.parts row.tableName table, rows ++ [row]⟩ : Content R).storedIn
      (rows ++ [row]) = c.storedIn rows ++ table.records := by
  rw [storedIn_append]
  refine congrArg₂ _ (flatMap_congr fun row' hrow' => ?_) ?_
  · simp [update_of_ne (other row' hrow')]
  · simp [storedIn]

theorem mem_rows_of_mem_staying {cut : Bool} (hrow : row ∈ c.staying schema cut) :
    row ∈ c.rows := by
  rw [staying] at hrow
  split at hrow
  · exact (kept_suffix schema c).subset hrow
  · exact hrow

theorem Shaped.before_last (wf : c.Shaped schema) {init : List IndexRow} {last : IndexRow}
    (rows : c.rows = init ++ [last]) : ∀ row ∈ init, row.tableName < last.tableName :=
  fun row hrow => (pairwise_append.1 (rows ▸ wf.names)).2.2 row hrow last (by simp)

theorem store_stored (two : 2 ≤ schema.maxFiles) (wf : c.Shaped schema) (cut : Bool)
    (r : R) : (c.store schema cut r).stored =
      c.storedIn (c.staying schema cut) ++ [c.newRecord schema r] := by
  rw [← storedIn_rows]
  rcases store_cases two wf cut r with ⟨-, -, saved⟩ | ⟨init, last, rows, -, stay, saved⟩
  · have other (row : IndexRow) (hrow : row ∈ c.staying schema cut) :
        row.tableName ≠ (newRow schema c.nextName (c.newRecord schema r)).tableName :=
      Nat.ne_of_lt (wf.lt_nextName (mem_rows_of_mem_staying hrow))
    rw [saved]
    exact storedIn_addRow _ other
  · have other (row : IndexRow) (hrow : row ∈ init) :
        row.tableName ≠ (widenTo schema last (c.newRecord schema r)).tableName := by
      rw [widenTo_tableName]
      exact Nat.ne_of_lt (wf.before_last rows row hrow)
    have stored := storedIn_addRow (c := c) ⟨(c.parts last.tableName).records ++
      [c.newRecord schema r], c.newAutoInc schema⟩ other
    rw [widenTo_tableName] at stored
    rw [saved]
    refine stored.trans ?_
    rw [stay, rows, storedIn_append]
    simp [storedIn]

/-! ## Saving a record keeps the invariant -/

theorem describes_newRow (name : Nat) (r : R) : Describes schema (newRow schema name r) [r] where
  nonempty := cons_ne_nil _ _
  firstId r' h := by
    obtain rfl : r = r' := Option.some.inj h
    rfl
  days date hdate r' h := by
    obtain rfl : r' = r := mem_singleton.1 h
    simp [newRow, hdate]

theorem Describes.widenTo {records : List R} (desc : Describes schema row records)
    (whole : truncDateTime row.fromDate = row.fromDate ∧ truncDateTime row.toDate = row.toDate)
    (r : R) : Describes schema (widenTo schema row r) (records ++ [r]) where
  nonempty := by simp
  firstId r' h := by
    have first : records.head? = some r' := by
      rw [List.head?_append] at h
      cases hhead : records.head? with
      | some a => simpa [hhead] using h
      | none => exact absurd (List.head?_eq_none_iff.1 hhead) desc.nonempty
    rw [← desc.firstId r' first, Content.widenTo]
    split <;> rfl
  days date hdate r' h := by
    have widened : Content.widenTo schema row r = row.widen (truncDateTime (date r)) := by
      simp [Content.widenTo, hdate]
    rw [widened, IndexRow.widen]
    simp only [whole.1, whole.2]
    rcases mem_append.1 h with h | h
    · have := desc.days date hdate r' h
      split_ifs <;> omega
    · obtain rfl := mem_singleton.1 h
      split_ifs <;> omega

theorem whole_newRow (name : Nat) (r : R) :
    truncDateTime (newRow schema name r).fromDate = (newRow schema name r).fromDate ∧
      truncDateTime (newRow schema name r).toDate = (newRow schema name r).toDate := by
  rw [newRow]
  split
  · exact ⟨truncDateTime_truncDateTime _, truncDateTime_truncDateTime _⟩
  · exact ⟨rfl, rfl⟩

theorem whole_widenTo
    (whole : truncDateTime row.fromDate = row.fromDate ∧ truncDateTime row.toDate = row.toDate)
    (r : R) : truncDateTime (widenTo schema row r).fromDate = (widenTo schema row r).fromDate ∧
      truncDateTime (widenTo schema row r).toDate = (widenTo schema row r).toDate := by
  rw [widenTo]
  split
  · simp only [IndexRow.widen]
    split_ifs <;> simp [truncDateTime_truncDateTime, whole]
  · exact whole

theorem newRecord_id (auto : schema.autoIncField.isSome) (c : Content R) (r : R) :
    schema.idField.get (c.newRecord schema r) = c.newAutoInc schema := by
  obtain ⟨⟨read, write⟩, hauto⟩ := Option.isSome_iff_exists.1 auto
  have bound : (c.lastAutoInc + 1) % ulongSize < ulongSize := Nat.mod_lt _ (by decide)
  have id := schema.id_write hauto _ r bound
  simpa [newRecord, Table.written, hauto, Table.nextAutoInc, newAutoInc] using id

/-- The next record may be `r`: auto-increment values do not wrap, and in a table
without them the id is greater than those stored. -/
structure Admits (schema : MultiPartSchema R) (c : Content R) (r : R) : Prop where
  noWrap : schema.autoIncField.isSome → c.stored ≠ [] → c.lastAutoInc + 1 < ulongSize
  grows : schema.autoIncField = none → ∀ a ∈ c.stored, schema.idField.get a < schema.idField.get r

theorem Shaped.exists_last (wf : c.Shaped schema) (ha : a ∈ c.stored) :
    ∃ last init r, c.rows.getLast? = some last ∧
      (c.parts last.tableName).records.getLast? = some r ∧ c.stored = init ++ [r] := by
  rcases c.rows.eq_nil_or_concat with rows | ⟨init, last, rows⟩
  · simp [stored, files, rows] at ha
  · rw [concat_eq_append] at rows
    have filled := (wf.describes last (by simp [rows])).nonempty
    obtain ⟨before, r, records⟩ := eq_nil_or_concat _ |>.resolve_left filled
    rw [concat_eq_append] at records
    refine ⟨last, c.storedIn init ++ before, r, by simp [rows], by simp [records], ?_⟩
    rw [← storedIn_rows, rows, storedIn_append, append_assoc, ← records]
    simp [storedIn]

theorem WellFormed.id_lt (wf : c.WellFormed schema) {r : R} (admits : c.Admits schema r)
    (ha : a ∈ c.stored) : schema.idField.get a < schema.idField.get (c.newRecord schema r) := by
  cases hauto : schema.autoIncField with
  | none =>
    have same : c.newRecord schema r = r := by simp [newRecord, Table.written, hauto]
    rw [same]
    exact admits.grows hauto a ha
  | some field =>
    have auto : schema.autoIncField.isSome := by simp [hauto]
    obtain ⟨last, init, b, hlast, hb, split⟩ := wf.toShaped.exists_last ha
    have inc : c.lastAutoInc = schema.idField.get b := by
      rw [← wf.autoInc auto last b hlast hb]
      simp [lastAutoInc, hlast]
    have le : schema.idField.get a ≤ schema.idField.get b := by
      rw [split, mem_append, mem_singleton] at ha
      rcases ha with ha | rfl
      · exact Nat.le_of_lt ((pairwise_append.1 (split ▸ wf.ids)).2.2 a ha b (by simp))
      · exact Nat.le_refl _
    have room := admits.noWrap auto (ne_nil_of_mem ha)
    rw [newRecord_id auto, newAutoInc, if_pos auto, Nat.mod_eq_of_lt room]
    omega

theorem storedIn_staying_suffix (schema : MultiPartSchema R) (c : Content R) (cut : Bool) :
    c.storedIn (c.staying schema cut) <:+ c.stored := by
  have suffix : c.staying schema cut <:+ c.rows := by
    rw [staying]
    split
    · exact kept_suffix schema c
    · exact suffix_rfl
  obtain ⟨before, rows⟩ := suffix
  rw [← storedIn_rows, ← rows, storedIn_append]
  exact suffix_append _ _

theorem storedIn_staying_sublist (schema : MultiPartSchema R) (c : Content R) (cut : Bool) :
    (c.storedIn (c.staying schema cut)).Sublist c.stored :=
  (storedIn_staying_suffix schema c cut).sublist

theorem Shaped.addRow (wf : c.Shaped schema) {before : List IndexRow} {table : Table R}
    (sub : before.Sublist c.rows) (below : ∀ row' ∈ before, row'.tableName < row.tableName)
    (newest : ∀ row' ∈ c.rows, row'.tableName ≤ row.tableName)
    (desc : Describes schema row table.records)
    (whole : truncDateTime row.fromDate = row.fromDate ∧ truncDateTime row.toDate = row.toDate)
    (count : before.length + 1 ≤ schema.maxFiles) :
    (⟨Function.update c.parts row.tableName table, before ++ [row]⟩ : Content R).Shaped schema := by
  have cases {P : IndexRow → Prop} (h : ∀ row' ∈ before, P row') (h' : P row) :
      ∀ row' ∈ before ++ [row], P row' := fun row' hrow' =>
    (mem_append.1 hrow').elim (h row') fun h => mem_singleton.1 h ▸ h'
  refine ⟨?_, cases (fun row' hrow' => ?_) ?_, by simpa using count,
    cases (fun row' hrow' => wf.whole row' (sub.subset hrow')) whole, fun n hn => ?_⟩
  · rw [pairwise_append]
    refine ⟨wf.names.sublist sub, pairwise_singleton _ _, fun row' hrow' row'' h => ?_⟩
    exact mem_singleton.1 h ▸ below row' hrow'
  · simp only [update_of_ne (Nat.ne_of_lt (below row' hrow'))]
    exact wf.describes row' (sub.subset hrow')
  · simpa only [update_self] using desc
  · have hname : row.tableName < n := hn row (by simp)
    simp only [update_of_ne (Nat.ne_of_gt hname)]
    exact wf.fresh n fun row' hrow' => Nat.lt_of_le_of_lt (newest row' hrow') hname

theorem Shaped.store (two : 2 ≤ schema.maxFiles) (wf : c.Shaped schema) (cut : Bool) (r : R) :
    (c.store schema cut r).Shaped schema := by
  rcases store_cases two wf cut r with
    ⟨-, stay, saved⟩ | ⟨init, last, rows, -, stay, saved⟩
  · -- a new part after the rows kept
    rw [saved, stay]
    have kept := kept_suffix schema c
    exact wf.addRow kept.sublist (fun row hrow => wf.lt_nextName (kept.subset hrow))
      (fun row hrow => Nat.le_of_lt (wf.lt_nextName hrow))
      (describes_newRow c.nextName _) (whole_newRow c.nextName _) (kept_length two wf.count)
  · -- the last part, its row widened
    have name : (widenTo schema last (c.newRecord schema r)).tableName = last.tableName :=
      widenTo_tableName _ _
    have before := wf.before_last rows
    have count := wf.count
    rw [rows, length_append] at count
    rw [saved, ← name]
    refine wf.addRow (by rw [rows]; exact sublist_append_left _ _) (by rwa [name])
      (fun row hrow => ?_) (name.symm ▸ (wf.describes last (by simp [rows])).widenTo
        (wf.whole last (by simp [rows])) _) (whole_widenTo (wf.whole last (by simp [rows])) _) count
    rw [rows, mem_append, mem_singleton] at hrow
    rw [name]
    rcases hrow with hrow | rfl
    · exact Nat.le_of_lt (before row hrow)
    · exact Nat.le_refl _

theorem store_last (two : 2 ≤ schema.maxFiles) (wf : c.Shaped schema) (cut : Bool) (r : R) :
    ∃ last records, (c.store schema cut r).rows.getLast? = some last ∧
      (c.store schema cut r).parts last.tableName =
        ⟨records ++ [c.newRecord schema r], c.newAutoInc schema⟩ := by
  rcases store_cases two wf cut r with ⟨-, -, saved⟩ | ⟨init, last, -, -, -, saved⟩
  · exact ⟨newRow schema c.nextName (c.newRecord schema r), [], by simp [saved],
      by simp [saved, newRow]⟩
  · exact ⟨widenTo schema last (c.newRecord schema r), (c.parts last.tableName).records,
      by simp [saved], by simp [saved]⟩

theorem WellFormed.store (two : 2 ≤ schema.maxFiles) (wf : c.WellFormed schema) (cut : Bool)
    {r : R} (admits : c.Admits schema r) : (c.store schema cut r).WellFormed schema := by
  refine ⟨wf.toShaped.store two cut r, ?_, fun auto last b hlast hb => ?_⟩
  · have stay := storedIn_staying_sublist schema c cut
    rw [store_stored two wf.toShaped, pairwise_append]
    refine ⟨wf.ids.sublist stay, pairwise_singleton _ _, fun a ha b hb => ?_⟩
    obtain rfl := mem_singleton.1 hb
    exact wf.id_lt admits (stay.subset ha)
  · obtain ⟨last', records, hlast', part⟩ := store_last two wf.toShaped cut r
    obtain rfl := Option.some.inj (hlast.symm.trans hlast')
    rw [part, List.getLast?_concat] at hb
    obtain rfl := Option.some.inj hb
    rw [part, newRecord_id auto]

theorem Shaped.sorted (wf : c.Shaped schema)
    (ids : c.stored.Pairwise fun a b => schema.idField.get a ≤ schema.idField.get b) :
    c.Sorted schema :=
  ⟨fun row hrow => (wf.describes row hrow).nonempty, fun row hrow => (wf.describes row hrow).firstId,
    ids⟩

theorem WellFormed.sorted (wf : c.WellFormed schema) : c.Sorted schema :=
  wf.toShaped.sorted (wf.ids.imp Nat.le_of_lt)

theorem WellFormed.eq_of_id (wf : c.WellFormed schema) {b : R} (ha : a ∈ c.stored)
    (hb : b ∈ c.stored) (same : schema.idField.get a = schema.idField.get b) : a = b :=
  inj_on_of_nodup_map (pairwise_map.2 (wf.ids.imp Nat.ne_of_lt)) ha hb same

/-! ## After a restart -/

/-- The content after a restart: each part loads its auto-increment value again. -/
def reload (schema : MultiPartSchema R) (c : Content R) : Content R where
  parts name := { c.parts name with
    autoIncValue := (c.parts name).loadAutoIncValue schema.toSchema }
  rows := c.rows

theorem reload_stored (schema : MultiPartSchema R) (c : Content R) :
    (c.reload schema).stored = c.stored := by
  simp [stored, files, reload, flatMap_map]

theorem Shaped.reload (wf : c.Shaped schema) : (c.reload schema).Shaped schema :=
  ⟨wf.names, wf.describes, wf.count, wf.whole, wf.fresh⟩

theorem loadAutoIncValue_eq (auto : schema.autoIncField.isSome) {t : Table R} {r : R}
    (hr : t.records.getLast? = some r) :
    t.loadAutoIncValue schema.toSchema = schema.idField.get r := by
  obtain ⟨⟨read, write⟩, hauto⟩ := Option.isSome_iff_exists.1 auto
  simp [Table.loadAutoIncValue, hauto, hr, schema.id_read hauto]

theorem WellFormed.reload (wf : c.WellFormed schema) : (c.reload schema).WellFormed schema :=
  ⟨wf.toShaped.reload, by rw [reload_stored]; exact wf.ids,
    fun auto _ _ _ hr => loadAutoIncValue_eq auto hr⟩

theorem WellFormed.reload_lastAutoInc (wf : c.WellFormed schema)
    (auto : schema.autoIncField.isSome) :
    (c.reload schema).lastAutoInc ≤ c.lastAutoInc := by
  cases hlast : c.rows.getLast? with
  | none =>
    have rows := List.getLast?_eq_none_iff.1 hlast
    have empty := wf.fresh 0 (by simp [rows])
    simp [lastAutoInc, Content.reload, hlast, Table.loadAutoIncValue, empty]
  | some last =>
    obtain ⟨records, r, hr⟩ := eq_nil_or_concat _ |>.resolve_left
      (wf.describes last (mem_of_getLast? hlast)).nonempty
    have hr : (c.parts last.tableName).records.getLast? = some r := by simp [hr]
    simp [lastAutoInc, Content.reload, hlast, loadAutoIncValue_eq auto hr,
      wf.autoInc auto last r hlast hr]

end Content

namespace MultiPart

variable {R : Type} {schema : MultiPartSchema R} {s : MultiPart R}

theorem reopen_content (sync : s.Synced) (wf : s.content.Shaped schema) :
    (s.reopen schema).Synced ∧ (s.reopen schema).content = s.content.reload schema :=
  synced_open schema _ s.indexTable wf.count fun rows => (sync.empty rows).2.2.2

theorem reopen_flags (wf : s.content.Shaped schema) :
    (s.reopen schema).appendFileMode = false ∧ (s.reopen schema).shouldCutFile = false :=
  open_flags schema _ s.indexTable wf.count

/-- The table when the database is empty. -/
def created (schema : MultiPartSchema R) : MultiPart R :=
  MultiPart.open schema (fun _ => Table.empty) Table.empty

theorem created_content (schema : MultiPartSchema R) :
    (created schema).Synced ∧ (created schema).content = ⟨fun _ => Table.empty, []⟩ :=
  synced_open schema (fun _ => Table.empty) Table.empty (Nat.zero_le _) fun _ => rfl

theorem shaped_created (schema : MultiPartSchema R) :
    (created schema).content.Shaped schema := by
  rw [(created_content schema).2]
  exact ⟨.nil, by simp, Nat.zero_le _, by simp, fun _ _ => rfl⟩

theorem filled_of_shaped (wf : s.content.Shaped schema) :
    ∀ row ∈ s.indexTable.records, (s.parts row.tableName).records ≠ [] :=
  fun row hrow => (wf.describes row hrow).nonempty

end MultiPart

end CimArm
