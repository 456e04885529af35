import CimArm.Db.RecordSet

/-!
# Searching and storing in a single table

The ways in which the managers look for a record of a single table: the loop from the first
record on, the `find` of a searcher, and the loop that reads all records.  A search that
succeeds stands on the first record that passes, and what is saved then replaces that record; one
that fails stands at the end, and what is added then comes behind all records.
-/

namespace CimArm.RecordSet

open List

variable {R : Type} (t : Table R) (p : R → Bool) (self : RecordSet R)

/-- `while (![rs eof]) { if (p) break; [rs moveNext]; }` -/
def seekRow : Nat → RecordSet R → Bool × RecordSet R
  | 0, self => (false, self)
  | fuel + 1, self =>
    if self.eof t then (false, self)
    else if p self.buffer then (true, self)
    else seekRow fuel (self.moveNext t).2

/-- The loop from the first record on. -/
def findRow : Bool × RecordSet R := seekRow t p (t.records.length + 1) (self.moveFirst t).2

/-- `find` of a `DataSearcher`, whose filters are one condition. -/
def find : Bool × RecordSet R :=
  let (moved, self) := (self.moveBeforeFirst t).2.moveNext t
  if !moved then (false, self) else seekRow t p (t.records.length + 1) self

/-- `while ([rs moveNext]) if (p) return` the record. -/
def nextWhere : Nat → RecordSet R → Option R
  | 0, _ => none
  | fuel + 1, self =>
    let (moved, self) := self.moveNext t
    if !moved then none
    else if p self.buffer then some self.buffer
    else nextWhere fuel self

/-- The records that `while ([rs moveNext])` visits. -/
def readRows : Nat → RecordSet R → List R
  | 0, _ => []
  | fuel + 1, self =>
    let (moved, self) := self.moveNext t
    if !moved then [] else self.buffer :: readRows fuel self

/-- What is added comes behind all records. -/
def AtEnd : Prop := self.feof = true → self.pos = t.records.length

/-- How a search ends. -/
inductive Search (result : Bool × RecordSet R) : Prop
  | found {k : Nat} {r : R} (record : t.records[k]? = some r) (passes : p r = true)
      (first : ∀ j < k, ∀ r', t.records[j]? = some r' → p r' = false)
      (on : result = (true, onRecord k r))
  | missed (fail : ∀ r ∈ t.records, p r = false) (answer : result.1 = false)
      (atEnd : result.2.AtEnd t)

variable {t : Table R} {p : R → Bool} {self : RecordSet R}

/-! ## Searching -/

theorem eof_onRecord {k : Nat} {r r' : R} (record : t.records[k]? = some r) :
    (onRecord k r').eof t = false := by
  have some : t.records.length ≠ 0 := Nat.ne_zero_of_lt (List.getElem?_eq_some_iff.1 record).1
  simp [eof, onRecord, some]

theorem seekRow_search {fuel k : Nat} {r : R} (record : t.records[k]? = some r)
    (enough : t.records.length ≤ k + fuel)
    (before : ∀ j < k, ∀ r', t.records[j]? = some r' → p r' = false) :
    Search t p (seekRow t p (fuel + 1) (onRecord k r)) := by
  induction fuel generalizing k r with
  | zero => exact absurd (List.getElem?_eq_some_iff.1 record).1 (Nat.not_lt.2 enough)
  | succ fuel ih =>
    have inside : (onRecord k r).eof t = false := eof_onRecord record
    rw [seekRow, inside, if_neg Bool.false_ne_true]
    by_cases passes : p r = true
    · rw [if_pos (show p (onRecord k r).buffer = true from passes)]
      exact .found record passes before rfl
    · rw [if_neg (show ¬p (onRecord k r).buffer = true from passes)]
      have up (j : Nat) (less : j < k + 1) (r' : R) (there : t.records[j]? = some r') :
          p r' = false := by
        rcases Nat.lt_succ_iff_lt_or_eq.1 less with earlier | rfl
        · exact before j earlier r' there
        · rw [record] at there
          cases there
          exact Bool.eq_false_iff.2 passes
      cases next : t.records[k + 1]? with
      | some r' =>
        have moved : (onRecord k r).moveNext t = (true, onRecord (k + 1) r') :=
          moveNext_read next rfl
        rw [moved]
        exact ih next (by omega) up
      | none =>
        have last := List.getElem?_eq_none_iff.1 next
        have here := (List.getElem?_eq_some_iff.1 record).1
        have ended : (onRecord k r).moveNext t = (false, { onRecord k r with feof := true }) := by
          rw [moveNext, inside, if_neg Bool.false_ne_true]
          rw [fread_of_length_le (show t.records.length ≤ k + 1 from last)]
          simp [eof, onRecord]
        have stop : ({ onRecord k r with feof := true } : RecordSet R).eof t = true := by
          simp [eof]
        rw [ended, seekRow]
        dsimp only
        rw [stop, if_pos rfl]
        refine .missed ?_ rfl fun _ => ?_
        · intro r' member
          obtain ⟨j, there⟩ := mem_iff_getElem?.1 member
          have low := (List.getElem?_eq_some_iff.1 there).1
          exact up j (by omega) r' there
        · show k + 1 = t.records.length
          omega

theorem seek_nil (records : t.records = []) : (self.seek t .set 0).pos = 0 := by
  have empty : t.records.length ≤ 0 := Nat.le_of_eq (length_eq_zero_iff.2 records)
  rw [seek, fseek_of_eq (n := 0) (by simp)]
  dsimp only
  rw [fread_of_length_le empty]

theorem findRow_search (t : Table R) (p : R → Bool) (self : RecordSet R) :
    Search t p (findRow t p self) := by
  rw [findRow]
  cases records : t.records with
  | nil =>
    have ended : (self.moveFirst t).2.eof t = true := by simp [eof, records]
    rw [seekRow, if_pos ended]
    refine .missed (by simp [records]) rfl fun _ => ?_
    rw [records]
    exact seek_nil records
  | cons r rest =>
    rw [moveFirst_cons records, ← records]
    apply @seekRow_search _ _ _ _ 0 r
    · rw [records]
      rfl
    · omega
    · intro j less
      exact absurd less (Nat.not_lt_zero j)

theorem find_search (t : Table R) (p : R → Bool) (self : RecordSet R) :
    Search t p (find t p self) := by
  rw [find, moveBeforeFirst_snd]
  cases records : t.records with
  | nil =>
    rw [moveNext_nil records]
    refine .missed (by simp [records]) rfl fun flag => ?_
    cases flag
  | cons r rest =>
    have first : t.records[0]? = some r := by
      rw [records]
      rfl
    rw [moveNext_read first rfl, ← records]
    apply @seekRow_search _ _ _ _ 0 r first
    · omega
    · intro j less
      exact absurd less (Nat.not_lt_zero j)

theorem readRows_eq {fuel k : Nat} (at_k : self.pos = k) (unread : self.feof = false)
    (enough : t.records.length ≤ k + fuel) :
    readRows t (fuel + 1) self = t.records.drop k := by
  induction fuel generalizing self k with
  | zero =>
    have last : t.records.length ≤ k := enough
    obtain ⟨stop, -⟩ := moveNext_end (at_k ▸ last)
    rw [readRows]
    dsimp only
    rw [stop, drop_of_length_le last]
    rfl
  | succ fuel ih =>
    rw [readRows]
    cases record : t.records[k]? with
    | some r =>
      have moved := moveNext_read (at_k ▸ record) unread
      obtain ⟨inside, here⟩ := List.getElem?_eq_some_iff.1 record
      rw [moved, at_k, drop_eq_getElem_cons inside, here]
      dsimp only
      have more : t.records.length ≤ k + 1 + fuel := by omega
      rw [if_neg (by simp), ih rfl rfl more]
      rfl
    | none =>
      have last := List.getElem?_eq_none_iff.1 record
      obtain ⟨stop, -⟩ := moveNext_end (at_k ▸ last)
      dsimp only
      rw [stop, drop_of_length_le last]
      rfl

theorem nextWhere_eq_find (fuel : Nat) (self : RecordSet R) :
    nextWhere t p fuel self = (readRows t fuel self).find? p := by
  induction fuel generalizing self with
  | zero => rfl
  | succ fuel ih =>
    rw [nextWhere, readRows]
    generalize self.moveNext t = moved
    obtain ⟨found, next⟩ := moved
    cases found with
    | false => rfl
    | true =>
      dsimp only
      have more : ¬(!true) = true := by decide
      rw [if_neg more, if_neg more, List.find?_cons, ih]
      cases p next.buffer with
      | false => rfl
      | true => rfl

/-! ## Storing -/

theorem save_onRecord (schema : Schema R) {k : Nat} {r : R} (record : t.records[k]? = some r)
    (r' : R) : (((onRecord k r).setRecordBuffer r').save schema t).2.1 =
      { t with records := t.records.set k r' } :=
  (save_current schema r' rfl rfl record).1

theorem save_add {schema : Schema R} (plain : schema.autoIncField = none) (atEnd : self.AtEnd t)
    (r : R) : (((self.add schema).setRecordBuffer r).save schema t).2.1 =
      { t with records := t.records ++ [r] } := by
  rw [(save_new schema r atEnd).1, Table.append, Table.written, plain]
  rfl

end CimArm.RecordSet
