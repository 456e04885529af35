import CimArm.Db.IndexInvariant
import CimArm.Lib.SortedParts

/-!
# Detail tables that follow a header table

A header table is saved one record at a time; the lines of a header go to a detail
table without record limit, which starts a new part at the first line saved after
the header table started one.  `Aligned` says what keeps the two in step.  Each
header id has a `level`, the number of header parts there were once its header was
saved.  Every detail part is about levels above those of the part before, so that
as many detail parts as header parts always reach back at least as far
(`Aligned.filter_stored`).
-/

namespace CimArm.Content

open SortedParts List Function

variable {R S : Type}

/-- The suffixes of the parts of the index follow one another. -/
def Consecutive (c : Content R) : Prop :=
  ∀ (i : Nat) row, c.rows[i]? = some row → row.tableName + c.rows.length = c.nextName + i

theorem mem_stored {c : Content R} {r : R} :
    r ∈ c.stored ↔ ∃ row ∈ c.rows, r ∈ (c.parts row.tableName).records := by
  simp [stored, files]

section store

variable {schema : MultiPartSchema R} {c : Content R} {cut : Bool} {r : R}

/-- Whether saving starts a part. -/
def starts (schema : MultiPartSchema R) (c : Content R) (cut : Bool) : Bool :=
  decide (c.rows = []) || c.rotates schema cut

theorem Shaped.staying_cases (wf : c.Shaped schema) (cut : Bool) :
    c.staying schema cut = c.rows ∨
      c.rotates schema cut = true ∧ ∃ first, c.rows = first :: c.staying schema cut ∧
        c.rows.length = schema.maxFiles := by
  have count := wf.count
  rw [staying]
  cases rotates : c.rotates schema cut with
  | false => exact .inl rfl
  | true =>
    rw [if_pos rfl, kept, toDelete]
    rcases hrows : c.rows with - | ⟨first, rest⟩
    · exact .inl (by simp)
    · rw [hrows] at count
      by_cases full : (first :: rest).length ≥ schema.maxFiles
      · have length : (first :: rest).length = schema.maxFiles := Nat.le_antisymm count full
        exact .inr ⟨rfl, first, by simp [length], length⟩
      · exact .inl (by rw [if_neg full, drop_zero])

theorem newRecord_of_none (none : schema.autoIncField = none) (c : Content R) (r : R) :
    c.newRecord schema r = r := by
  simp [newRecord, Table.written, none]

theorem store_nextName (two : 2 ≤ schema.maxFiles) (wf : c.Shaped schema) (cut : Bool) (r : R) :
    (c.store schema cut r).nextName =
      if c.starts schema cut then c.nextName + 1 else c.nextName := by
  rcases store_cases two wf cut r with ⟨started, -, saved⟩ | ⟨init, last, rows, kept, -, saved⟩
  · have started : c.starts schema cut = true := by simpa [starts] using started
    rw [started, saved]
    simp [nextName, newRow]
  · have started : c.starts schema cut = false := by simp [starts, rows, kept]
    rw [started, saved]
    simp [nextName, rows]

theorem Consecutive.store (two : 2 ≤ schema.maxFiles) (wf : c.Shaped schema)
    (consecutive : c.Consecutive) (cut : Bool) (r : R) :
    (c.store schema cut r).Consecutive := by
  have next := store_nextName two wf cut r
  rcases store_cases two wf cut r with
    ⟨started, stay, saved⟩ | ⟨init, last, rows, kept, -, saved⟩
  · have started : c.starts schema cut = true := by simpa [starts] using started
    rw [started, if_pos rfl] at next
    intro i row hrow
    rw [next]
    rw [saved, stay] at hrow ⊢
    simp only [length_append, length_singleton]
    rcases Nat.lt_trichotomy i (c.kept schema).length with before | rfl | after
    · rw [List.getElem?_append_left before, Content.kept, List.getElem?_drop] at hrow
      have number := consecutive _ _ hrow
      rw [Content.kept, length_drop] at before ⊢
      omega
    · rw [List.getElem?_concat_length] at hrow
      obtain rfl := Option.some.inj hrow
      simp only [newRow]
      omega
    · rw [List.getElem?_eq_none (by simp; omega)] at hrow
      cases hrow
  · have started : c.starts schema cut = false := by simp [starts, rows, kept]
    rw [started] at next
    intro i row hrow
    rw [next]
    rw [saved] at hrow ⊢
    have length : c.rows.length = init.length + 1 := by simp [rows]
    obtain ⟨row', hrow', name⟩ : ∃ row', c.rows[i]? = some row' ∧ row'.tableName = row.tableName := by
      rcases Nat.lt_trichotomy i init.length with before | rfl | after
      · rw [List.getElem?_append_left before] at hrow
        exact ⟨row, by rw [rows, List.getElem?_append_left before, hrow], rfl⟩
      · rw [List.getElem?_concat_length] at hrow
        obtain rfl := Option.some.inj hrow
        exact ⟨last, by rw [rows, List.getElem?_concat_length], by simp⟩
      · rw [List.getElem?_eq_none (by simp; omega)] at hrow
        cases hrow
    have number := consecutive i row' hrow'
    simp only [length_append, length_singleton, Bool.false_eq_true, if_false]
    omega

end store

/-- A header table and the detail table that follows it; `written` are all lines
ever saved and `cut` says that the detail table is to start a part. -/
structure Aligned (header : MultiPartSchema R) (detail : MultiPartSchema S) (level : Nat → Nat)
    (headers : Content R) (details : Content S) (cut : Bool) (written : List S) : Prop where
  wellFormed : headers.WellFormed header
  consecutive : headers.Consecutive
  shaped : details.Shaped detail
  ids : details.stored.Pairwise fun x y => detail.idField.get x ≤ detail.idField.get y
  headerLevel : ∀ row ∈ headers.rows, ∀ r ∈ (headers.parts row.tableName).records,
    level (header.idField.get r) = row.tableName + 1
  newest : ∀ x ∈ details.stored, level (detail.idField.get x) ≤ headers.nextName
  apart : details.rows.Pairwise fun a b =>
    ∀ x ∈ (details.parts a.tableName).records, ∀ y ∈ (details.parts b.tableName).records,
      level (detail.idField.get x) < level (detail.idField.get y)
  /-- A part is to be started only once the header table has started one. -/
  pending : cut = true → ∀ x ∈ details.stored, level (detail.idField.get x) < headers.nextName
  /-- Lines are dropped only when their header has been. -/
  dropped : ∃ past, written = past ++ details.stored ∧
    ∀ x ∈ past, level (detail.idField.get x) + header.maxFiles ≤ headers.nextName

namespace Aligned

variable {header : MultiPartSchema R} {detail : MultiPartSchema S} {level : Nat → Nat}
  {headers : Content R} {details : Content S} {cut : Bool} {written : List S}

theorem mem_written (al : Aligned header detail level headers details cut written) {x : S}
    (hx : x ∈ details.stored) : x ∈ written := by
  obtain ⟨past, rfl, -⟩ := al.dropped
  exact mem_append_right _ hx

theorem filter_stored (al : Aligned header detail level headers details cut written) {r : R}
    (hr : r ∈ headers.stored) :
    details.stored.filter (fun x => detail.idField.get x = header.idField.get r) =
      written.filter (fun x => detail.idField.get x = header.idField.get r) := by
  obtain ⟨past, rfl, old⟩ := al.dropped
  obtain ⟨row, hrow, hr⟩ := mem_stored.1 hr
  obtain ⟨i, hi⟩ := mem_iff_getElem?.1 hrow
  have here := al.headerLevel row hrow r hr
  have number := al.consecutive i row hi
  have count := al.wellFormed.count
  have none : past.filter (fun x => detail.idField.get x = header.idField.get r) = [] := by
    rw [filter_eq_nil_iff]
    intro x hx same
    have far := old x hx
    rw [of_decide_eq_true same, here] at far
    omega
  rw [filter_append, none, nil_append]

/-- Saving a header with a new id; the detail table is told to start a part only when
the header table has done so. -/
theorem storeHeader (two : 2 ≤ header.maxFiles) (noAuto : header.autoIncField = none)
    (al : Aligned header detail level headers details cut written) {r : R}
    (grows : ∀ a ∈ headers.stored, header.idField.get a < header.idField.get r)
    (fresh : ∀ x ∈ written, detail.idField.get x ≠ header.idField.get r) (cut' : Bool)
    (asked : cut' = true → cut = true ∨ headers.starts header false = true) :
    Aligned header detail
      (Function.update level (header.idField.get r) (headers.store header false r).nextName)
      (headers.store header false r) details cut' written := by
  have shaped := al.wellFormed.toShaped
  have next := store_nextName two shaped false r
  have mono : headers.nextName ≤ (headers.store header false r).nextName := by
    rw [next]
    split <;> omega
  -- the levels of the lines saved before stay
  have same (x : S) (hx : x ∈ written) : Function.update level (header.idField.get r)
      (headers.store header false r).nextName (detail.idField.get x) =
        level (detail.idField.get x) :=
    update_of_ne (fresh x hx) _ _
  have old (row : IndexRow) (hrow : row ∈ headers.rows) (a : R)
      (ha : a ∈ (headers.parts row.tableName).records) :
      Function.update level (header.idField.get r) (headers.store header false r).nextName
        (header.idField.get a) = row.tableName + 1 := by
    have less := grows a (mem_stored.2 ⟨row, hrow, ha⟩)
    rw [update_of_ne (Nat.ne_of_lt less), al.headerLevel row hrow a ha]
  refine ⟨al.wellFormed.store two false ⟨fun auto => by simp [noAuto] at auto, fun _ => grows⟩,
    al.consecutive.store two shaped false r, al.shaped, al.ids, ?_, fun x hx => ?_, ?_,
    fun pending x hx => ?_, ?_⟩
  · rcases store_cases two shaped false r with
      ⟨started, -, saved⟩ | ⟨init, last, rows, kept, -, saved⟩
    · have started : headers.starts header false = true := by simpa [starts] using started
      rw [started, if_pos rfl] at next
      intro row hrow a ha
      rw [saved, mem_append, mem_singleton] at hrow
      rcases hrow with hrow | rfl
      · have hrow := mem_rows_of_mem_staying hrow
        rw [saved] at ha
        refine old row hrow a ?_
        simpa only [update_of_ne (Nat.ne_of_lt (shaped.lt_nextName hrow))] using ha
      · rw [saved] at ha
        have ha : a = r := by simpa [newRow, newRecord_of_none noAuto] using ha
        rw [ha, update_self, next]
        rfl
    · have started : headers.starts header false = false := by simp [starts, rows, kept]
      have lastName : headers.nextName = last.tableName + 1 := by simp [nextName, rows]
      rw [started, lastName] at next
      intro row hrow a ha
      rw [saved, mem_append, mem_singleton] at hrow
      rw [saved] at ha
      rcases hrow with hrow | rfl
      · refine old row (by simp [rows, hrow]) a ?_
        have before := shaped.before_last rows row hrow
        simpa only [update_of_ne (Nat.ne_of_lt before)] using ha
      · simp only [widenTo_tableName, update_self, newRecord_of_none noAuto,
          mem_append, mem_singleton] at ha ⊢
        rcases ha with ha | rfl
        · exact old last (by simp [rows]) a ha
        · rw [update_self]
          exact next
  · rw [same x (al.mem_written hx)]
    exact Nat.le_trans (al.newest x hx) mono
  · refine al.apart.imp_of_mem fun {a b} ha hb lt x hx y hy => ?_
    rw [same x (al.mem_written (mem_stored.2 ⟨a, ha, hx⟩)),
      same y (al.mem_written (mem_stored.2 ⟨b, hb, hy⟩))]
    exact lt x hx y hy
  · rw [same x (al.mem_written hx)]
    rcases asked pending with before | started
    · exact Nat.lt_of_lt_of_le (al.pending before x hx) mono
    · rw [started, if_pos rfl] at next
      have := al.newest x hx
      omega
  · obtain ⟨past, written_eq, far⟩ := al.dropped
    refine ⟨past, written_eq, fun x hx => ?_⟩
    rw [same x (by rw [written_eq]; exact mem_append_left _ hx)]
    exact Nat.le_trans (far x hx) mono

theorem storeDetail (two : 2 ≤ header.maxFiles) (le : header.maxFiles ≤ detail.maxFiles)
    (unlimited : detail.maxRecordCount = none) (noAuto : detail.autoIncField = none)
    (al : Aligned header detail level headers details cut written) {x : S}
    (here : level (detail.idField.get x) = headers.nextName)
    (last : ∀ y ∈ details.stored, detail.idField.get y ≤ detail.idField.get x) :
    Aligned header detail level headers (details.store detail cut x) false (written ++ [x]) := by
  have two' : 2 ≤ detail.maxFiles := Nat.le_trans two le
  have stored := store_stored two' al.shaped cut x
  rw [newRecord_of_none noAuto] at stored
  have stay := storedIn_staying_sublist detail details cut
  have of_stored {P : S → Prop} (h : ∀ y ∈ details.stored, P y) (h' : P x) :
      ∀ y ∈ (details.store detail cut x).stored, P y := fun y hy => by
    rw [stored, mem_append, mem_singleton] at hy
    rcases hy with hy | rfl
    · exact h y (stay.subset hy)
    · exact h'
  have rotates (h : details.rotates detail cut = true) : cut = true := by
    rw [Content.rotates] at h
    split at h
    · simpa [full, unlimited] using h
    · cases h
  obtain ⟨past, written_eq, far⟩ := al.dropped
  refine ⟨al.wellFormed, al.consecutive, al.shaped.store two' cut x, ?_, al.headerLevel,
    of_stored al.newest (Nat.le_of_eq here), ?_, fun h => by simp at h, ?_⟩
  · rw [stored, pairwise_append]
    refine ⟨al.ids.sublist stay, pairwise_singleton _ _, fun y hy z hz => ?_⟩
    rw [mem_singleton.1 hz]
    exact last y (stay.subset hy)
  · rcases store_cases two' al.shaped cut x with
      ⟨started, staying, saved⟩ | ⟨init, row, rows, -, -, saved⟩
    · -- the new part is only about the newest level
      rw [saved, pairwise_append]
      have other (a : IndexRow) (ha : a ∈ details.staying detail cut) :
          a ∈ details.rows ∧ a.tableName ≠ details.nextName := by
        have ha := mem_rows_of_mem_staying ha
        exact ⟨ha, Nat.ne_of_lt (al.shaped.lt_nextName ha)⟩
      refine ⟨?_, pairwise_singleton _ _, fun a ha b hb y hy z hz => ?_⟩
      · refine (al.apart.sublist ?_).imp_of_mem fun {a b} ha hb lt => ?_
        · rw [staying]
          exact (kept_suffix detail details).sublist
        · simpa only [update_of_ne (other a ha).2, update_of_ne (other b hb).2]
            using lt
      · obtain rfl := mem_singleton.1 hb
        simp only [update_of_ne (other a ha).2] at hy
        have hz : z = x := by simpa [newRow, newRecord_of_none noAuto] using hz
        have asked : cut = true := by
          rcases started with empty | started
          · have ha := (other a ha).1
            rw [empty] at ha
            cases ha
          · exact rotates started
        rw [hz, here]
        exact al.pending asked y (mem_stored.2 ⟨a, (other a ha).1, hy⟩)
    · -- the last part was above the others already
      rw [saved, pairwise_append]
      have before := al.shaped.before_last rows
      have apart := al.apart
      rw [rows, pairwise_append] at apart
      refine ⟨?_, pairwise_singleton _ _, fun a ha b hb y hy z hz => ?_⟩
      · refine apart.1.imp_of_mem fun {a b} ha hb lt => ?_
        simpa only [update_of_ne (Nat.ne_of_lt (before a ha)),
          update_of_ne (Nat.ne_of_lt (before b hb))] using lt
      · obtain rfl := mem_singleton.1 hb
        simp only [update_of_ne (Nat.ne_of_lt (before a ha)), widenTo_tableName,
          update_self, newRecord_of_none noAuto, mem_append, mem_singleton] at hy hz
        have lt := apart.2.2 a ha row (by simp) y hy
        rcases hz with hz | rfl
        · exact lt z hz
        · obtain ⟨w, hw⟩ := exists_mem_of_ne_nil _
            (al.shaped.describes row (by simp [rows])).nonempty
          rw [here]
          exact Nat.lt_of_lt_of_le (lt w hw)
            (al.newest w (mem_stored.2 ⟨row, by simp [rows], hw⟩))
  · rcases al.shaped.staying_cases cut with all | ⟨started, first, rows, full⟩
    · refine ⟨past, ?_, far⟩
      rw [stored, all, storedIn_rows, written_eq, append_assoc]
    · -- the first part is as many levels back as there are detail parts
      refine ⟨past ++ (details.parts first.tableName).records, ?_, fun y hy => ?_⟩
      · have split : details.stored = (details.parts first.tableName).records ++
            details.storedIn (details.staying detail cut) := by
          rw [← storedIn_rows, rows]
          rfl
        rw [stored, written_eq, split]
        simp
      · rcases mem_append.1 hy with hy | hy
        · exact far y hy
        · have parts : (details.rows.map fun row => (details.parts row.tableName).records) =
              (details.parts first.tableName).records :: (details.staying detail cut).map
                fun row => (details.parts row.tableName).records := by
            rw [rows, map_cons]
          have apart : (details.rows.map fun row =>
              (details.parts row.tableName).records).Pairwise fun p q =>
                ∀ y ∈ p, ∀ z ∈ q, level (detail.idField.get y) < level (detail.idField.get z) :=
            pairwise_map.2 al.apart
          have below (part : List S)
              (h : part ∈ details.rows.map fun row => (details.parts row.tableName).records)
              (z : S) (hz : z ∈ part) : level (detail.idField.get z) < headers.nextName := by
            obtain ⟨row, hrow, rfl⟩ := mem_map.1 h
            exact al.pending (rotates started) z (mem_stored.2 ⟨row, hrow, hz⟩)
          have nonempty (part : List S) (h : part ∈ (details.staying detail cut).map
              fun row => (details.parts row.tableName).records) : part ≠ [] := by
            obtain ⟨row, hrow, rfl⟩ := mem_map.1 h
            exact (al.shaped.describes row (mem_rows_of_mem_staying hrow)).nonempty
          have length := congrArg List.length parts
          rw [length_map, full] at length
          rw [parts] at apart below
          have reach := rank_add_length_le (fun z => level (detail.idField.get z))
            headers.nextName nonempty apart below hy
          omega

theorem reload (al : Aligned header detail level headers details cut written) :
    Aligned header detail level (headers.reload header) (details.reload detail) false written where
  wellFormed := al.wellFormed.reload
  consecutive := al.consecutive
  shaped := al.shaped.reload
  ids := reload_stored detail details ▸ al.ids
  headerLevel := al.headerLevel
  newest := reload_stored detail details ▸ al.newest
  apart := al.apart
  pending h := by simp at h
  dropped := by
    rw [reload_stored]
    exact al.dropped

end Aligned

end CimArm.Content
