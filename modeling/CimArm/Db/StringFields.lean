import CimArm.Cim.Defs
import CimArm.Db.Edit
import CimArm.Lib.Buffer

/-!
# String fields

A string field has a fixed width, and a terminator where the string is shorter.  The setter of
a record set copies at most all but one of the bytes and a terminator; that of a multi-part
table copies the string alone, so that what the field held before goes on after it.  Both read
the field up to the first zero byte, or to its end.

* `setStringValue_iff`: which strings are read back, and what they leave alone.
-/

namespace CimArm

/-- A field of a record: where it starts, and its width. -/
structure Field (n : Nat) : Type where
  offset : Nat
  len : Nat
  pos : 0 < len
  inside : offset + len ≤ n

/-- The byte is one of the field. -/
def Field.Has {n : Nat} (field : Field n) (p : Nat) : Prop :=
  field.offset ≤ p ∧ p < field.offset + field.len

/-- A string field of a table; an `AUTOINC` field of the table has bytes of its own, and
setting it changes no other. -/
structure StringField {n : Nat} (schema : Schema (Vector UInt8 n)) : Type extends Field n where
  autoInc : Option (Field n)
  apart : ∀ a ∈ autoInc, ∀ p, toField.Has p → ¬ a.Has p
  writes : ∀ {read write}, schema.autoIncField = some (read, write) → ∃ a, autoInc = some a ∧
    ∀ v r p (hp : p < n), ¬ a.Has p → (write v r)[p] = r[p]

/-- A C string that fits a field of some width. -/
structure Text (len : Nat) : Type where
  chars : CString
  nonzero : 0 ∉ chars
  fits : chars.length ≤ len

/-! ## Setting and reading -/

namespace RecordSet

variable {n : Nat} (schema : Schema (Vector UInt8 n)) (t : Table (Vector UInt8 n))
  (self : RecordSet (Vector UInt8 n))

/-- `setStringValue`, which raises where there is no record to edit. -/
def setStringValue (field : Field n) (aValue : CString) : Option (RecordSet (Vector UInt8 n)) :=
  if self.eof t && !self.isNewRecord then none
  else
    let aLen := if aValue.length < field.len then aValue.length else field.len - 1
    some { self with
      isDirty := true
      buffer := Buffer.strncpy self.buffer field.offset aValue aLen }

/-- `getStringValue`, which raises before the first record. -/
def getStringValue (field : Field n) : Option CString :=
  if self.pos = 0 && !self.isNewRecord then none
  else some (Buffer.cString (Buffer.read self.buffer field.offset field.len))

/-- Save the buffer, and read the record saved again. -/
def reread : RecordSet (Vector UInt8 n) :=
  let (_, t, self) := self.save schema t
  self.seek t .cur (-1)

/-- The record being edited, and what it was: a new one was what the buffer holds. -/
def Editing (old : Vector UInt8 n) : Prop :=
  self.isNewRecord = true ∧ old = self.buffer ∨
    self.isNewRecord = false ∧ self.feof = false ∧
      ∃ k, self.pos = k + 1 ∧ t.records[k]? = some old

/-- The string that is set, saved and read again is the same, and the other fields are what
they were; the number of a new record is handed out. -/
def RoundTrips {schema : Schema (Vector UInt8 n)} (field : StringField schema)
    (aValue : Text field.len) (old : Vector UInt8 n) : Prop :=
  ∃ set, self.setStringValue t field.toField aValue.chars = some set ∧
    (set.reread schema t).getStringValue field.toField = some aValue.chars ∧
    ∀ p (hp : p < n), ¬ field.Has p →
      (self.isNewRecord = true → ∀ a ∈ field.autoInc, ¬ a.Has p) →
      (set.reread schema t).buffer[p] = old[p]

end RecordSet

namespace MultiPart

variable {n : Nat} (schema : MultiPartSchema (Vector UInt8 n))
  (self : MultiPart (Vector UInt8 n))

def setStringValue (field : Field n) (aValue : CString) : Option (MultiPart (Vector UInt8 n)) :=
  let (atEnd, self) := self.eof
  if atEnd && !self.isNewRecord then none
  else
    let aLen := if aValue.length < field.len then aValue.length else field.len
    some { self with
      isDirty := true
      buffer := Buffer.memcpy self.buffer field.offset aValue aLen }

def getStringValue (field : Field n) : Option CString := self.data.getStringValue field

/-- The string that is set and saved is read back by every cursor that comes to the record,
whose number is `at_`, and the other fields are what they were. -/
def RoundTrips {schema : MultiPartSchema (Vector UInt8 n)} (field : StringField schema.toSchema)
    (aValue : Text field.len) (old : Vector UInt8 n) (at_ : List (Vector UInt8 n) → Nat) : Prop :=
  ∃ set autoInc, self.setStringValue field.toField aValue.chars = some set ∧
    (set.save schema).1 = .saved autoInc ∧
    ∀ again : MultiPart (Vector UInt8 n), again.content = (set.save schema).2.content →
      again.AtRecord (at_ again.stored) →
      again.getStringValue field.toField = some aValue.chars ∧
      ∀ p (hp : p < n), ¬ field.Has p →
        (self.isNewRecord = true → ∀ a ∈ field.autoInc, ¬ a.Has p) →
        again.current[p] = old[p]

end MultiPart

/-! ## One record -/

namespace StringField

variable {n : Nat} {schema : Schema (Vector UInt8 n)} (field : StringField schema)

/-- The records agree on the other fields. -/
def Same (r old : Vector UInt8 n) : Prop :=
  ∀ p (hp : p < n), ¬ field.Has p → r[p] = old[p]

variable {p : Nat} (b : Vector UInt8 n)

theorem written_getElem (t : Table (Vector UInt8 n)) (r : Vector UInt8 n) (hp : p < n)
    (elsewhere : ∀ a ∈ field.autoInc, ¬ a.Has p) : (t.written schema r)[p] = r[p] := by
  rw [Table.written]
  cases hauto : schema.autoIncField with
  | none => rfl
  | some auto =>
    obtain ⟨read, write⟩ := auto
    obtain ⟨a, ha, same⟩ := field.writes hauto
    exact same _ r p hp (elsewhere a ha)

theorem read_written (t : Table (Vector UInt8 n)) (r : Vector UInt8 n) :
    Buffer.read (t.written schema r) field.offset field.len =
      Buffer.read r field.offset field.len := by
  refine Buffer.read_congr fun p hp low high => ?_
  exact field.written_getElem t r hp fun a ha => field.apart a ha p ⟨low, high⟩

theorem copy_same {bytes : List UInt8} (fits : bytes.length ≤ field.len) (hp : p < n)
    (outside : ¬ field.Has p) : (Buffer.copy b field.offset bytes)[p] = b[p] := by
  refine Buffer.copy_outside b hp fun inside => outside ⟨inside.1, ?_⟩
  omega

/-- A terminator follows the string where there is room for it; a string as wide as the field
loses its last byte. -/
theorem string_strncpy (value : Text field.len) :
    Buffer.cString (Buffer.read (Buffer.strncpy b field.offset value.chars
        (if value.chars.length < field.len then value.chars.length else field.len - 1))
      field.offset field.len) = value.chars ↔ value.chars.length < field.len := by
  have width := field.pos
  have fits := value.fits
  rw [Buffer.strncpy]
  split_ifs with short
  · rw [List.take_length, Nat.sub_self, List.replicate_zero, List.append_nil,
      Buffer.read_copy b field.inside (by simp; omega), List.append_assoc,
      Buffer.cString_append value.nonzero, List.singleton_append, Buffer.cString_zero]
    simp [short]
  · have wide : value.chars.length = field.len := by omega
    have none : field.len - 1 - value.chars.length = 0 := by omega
    have cut : (value.chars.take (field.len - 1)).length = field.len - 1 := by
      rw [List.length_take]
      omega
    have nonzero : 0 ∉ value.chars.take (field.len - 1) := fun zero =>
      value.nonzero (List.mem_of_mem_take zero)
    rw [none, List.replicate_zero, List.append_nil, Buffer.read_copy b field.inside (by simp; omega),
      List.append_assoc, Buffer.cString_append nonzero, List.singleton_append, Buffer.cString_zero,
      List.append_nil]
    refine ⟨fun same => ?_, fun short => absurd short (by omega)⟩
    have length := congrArg List.length same
    omega

theorem string_memcpy (value : Text field.len) :
    Buffer.cString (Buffer.read (Buffer.memcpy b field.offset value.chars
        (if value.chars.length < field.len then value.chars.length else field.len))
      field.offset field.len) = value.chars ↔
      value.chars.length = field.len ∨ b[field.offset + value.chars.length]? = some 0 := by
  have fits := value.fits
  have inside := field.inside
  have whole : value.chars.take
      (if value.chars.length < field.len then value.chars.length else field.len) =
      value.chars := by
    apply List.take_of_length_le
    split_ifs <;> omega
  rw [Buffer.memcpy, whole, Buffer.read_copy b field.inside fits,
    Buffer.cString_append_eq value.nonzero, List.drop_eq_nil_iff, Buffer.length_read,
    List.head?_drop]
  rcases Nat.lt_or_ge value.chars.length field.len with short | wide
  · rw [Buffer.read_getElem? b (by have := field.inside; omega) short, Vector.getElem?_eq_getElem (by omega)]
    constructor
    · rintro (wide | zero)
      · omega
      · exact .inr zero
    · rintro (wide | zero)
      · omega
      · exact .inr zero
  · have same : value.chars.length = field.len := by omega
    simp [same]

theorem strncpy_same (value : Text field.len) (hp : p < n) (outside : ¬ field.Has p) :
    (Buffer.strncpy b field.offset value.chars
      (if value.chars.length < field.len then value.chars.length else field.len - 1))[p] =
      b[p] := by
  have width := field.pos
  have fits := value.fits
  refine field.copy_same b ?_ hp outside
  split_ifs
  · simp
    omega
  · simp
    omega

theorem memcpy_same (value : Text field.len) (hp : p < n) (outside : ¬ field.Has p) :
    (Buffer.memcpy b field.offset value.chars
      (if value.chars.length < field.len then value.chars.length else field.len))[p] = b[p] :=
  field.copy_same b ((List.length_take_le' ..).trans value.fits) hp outside

end StringField

/-! ## Record sets -/

namespace RecordSet

variable {n : Nat} {schema : Schema (Vector UInt8 n)} {t : Table (Vector UInt8 n)}
  {self : RecordSet (Vector UInt8 n)}

theorem fwrite_getElem? (schema : Schema (Vector UInt8 n)) (t : Table (Vector UInt8 n))
    (self : RecordSet (Vector UInt8 n)) : (self.fwrite schema t).1.records[self.pos]? = some self.buffer := by
  have before : (t.records.take self.pos ++
      List.replicate (self.pos - t.records.length) schema.blank).length = self.pos := by
    rw [List.length_append, List.length_take, List.length_replicate]
    omega
  show (t.records.take self.pos ++ List.replicate (self.pos - t.records.length) schema.blank ++
    [self.buffer] ++ t.records.drop (self.pos + 1))[self.pos]? = some self.buffer
  rw [List.append_assoc, List.getElem?_append_right (by omega), before, Nat.sub_self]
  rfl

theorem seek_fwrite (schema : Schema (Vector UInt8 n)) (t : Table (Vector UInt8 n))
    (self : RecordSet (Vector UInt8 n)) : ({ (self.fwrite schema t).2 with isDirty := false, isNewRecord := false } :
      RecordSet (Vector UInt8 n)).seek (self.fwrite schema t).1 .cur (-1) =
      onRecord self.pos self.buffer := by
  have back : ((self.pos + 1 : Nat) : Int) + -1 = self.pos := by omega
  have written := fwrite_getElem? schema t self
  generalize (self.fwrite schema t).1 = t' at written ⊢
  rw [seek]
  dsimp only [fwrite]
  rw [fseek_of_eq back]
  exact fread_of_getElem? written

theorem append_buffer (schema : Schema (Vector UInt8 n)) (t : Table (Vector UInt8 n))
    (self : RecordSet (Vector UInt8 n)) : (self.append schema t).2.2.buffer = t.written schema self.buffer := by
  have kept (target : Int) : (self.fseek target).2.buffer = self.buffer := by
    rw [fseek]
    split_ifs <;> rfl
  unfold append Table.written
  cases schema.autoIncField with
  | none =>
    dsimp only
    split_ifs
    · rfl
    · exact kept _
  | some auto =>
    dsimp only [setRecordBuffer]
    split_ifs
    · rfl
    · rw [kept]

theorem update_buffer (schema : Schema (Vector UInt8 n)) (self : RecordSet (Vector UInt8 n)) :
    (self.update schema).2.buffer = self.buffer := by
  unfold update
  rw [fseek]
  split_ifs <;> rfl

theorem reread_eq (schema : Schema (Vector UInt8 n)) (t : Table (Vector UInt8 n))
    {self : RecordSet (Vector UInt8 n)} (dirty : self.isDirty = true) : ∃ p, self.reread schema t =
    onRecord p (if self.isNewRecord then t.written schema self.buffer else self.buffer) := by
  unfold reread save
  rw [dirty]
  cases hnew : self.isNewRecord with
  | true =>
    refine ⟨(self.append schema t).2.2.pos, ?_⟩
    rw [if_pos rfl, ← append_buffer schema]
    exact seek_fwrite schema (self.append schema t).2.1 (self.append schema t).2.2
  | false =>
    refine ⟨(self.update schema).2.pos, ?_⟩
    rw [if_neg Bool.false_ne_true, ← update_buffer schema]
    exact seek_fwrite schema t (self.update schema).2

/-- A string that is set in a record set is read back exactly when there is room for its
terminator, and the other fields are kept when the buffer held them. -/
theorem Editing.roundTrips_iff {field : StringField schema} {old : Vector UInt8 n}
    (editing : self.Editing t old) (value : Text field.len) :
    self.RoundTrips t field value old ↔
      value.chars.length < field.len ∧ field.Same self.buffer old := by
  have may : (self.eof t && !self.isNewRecord) = false := by
    rcases editing with ⟨new, -⟩ | ⟨-, flag, k, -, record⟩
    · simp [new]
    · have inside := (List.getElem?_eq_some_iff.1 record).1
      simp only [eof, flag, Bool.or_false, Bool.and_eq_false_imp, decide_eq_true_eq]
      omega
  obtain ⟨p, again⟩ := reread_eq schema t (show ({ self with
    isDirty := true
    buffer := Buffer.strncpy self.buffer field.offset value.chars
      (if value.chars.length < field.len then value.chars.length else field.len - 1) } :
      RecordSet (Vector UInt8 n)).isDirty = true from rfl)
  have string := StringField.string_strncpy field self.buffer value
  have others := fun (q : Nat) (hq : q < n) (outside : ¬ field.Has q) =>
    StringField.strncpy_same field self.buffer value hq outside
  rw [RoundTrips, setStringValue, may, if_neg Bool.false_ne_true]
  dsimp only at again ⊢
  generalize Buffer.strncpy self.buffer field.offset value.chars
    (if value.chars.length < field.len then value.chars.length else field.len - 1) = b
    at again string others ⊢
  rw [← string]
  cases hnew : self.isNewRecord with
  | true =>
    rw [hnew, if_pos rfl] at again
    have old_eq : old = self.buffer := by
      rcases editing with ⟨-, same⟩ | ⟨stored, -⟩
      · exact same
      · rw [hnew] at stored
        exact Bool.noConfusion stored
    have read : (onRecord p (t.written schema b)).getStringValue field.toField =
        some (Buffer.cString (Buffer.read b field.offset field.len)) := by
      rw [← StringField.read_written field t b]
      rfl
    constructor
    · rintro ⟨set, hset, back, -⟩
      obtain rfl := Option.some.inj hset
      rw [again, read] at back
      exact ⟨Option.some.inj back, fun q hq _ => by rw [old_eq]⟩
    · rintro ⟨back, -⟩
      refine ⟨_, rfl, ?_, fun q hq outside elsewhere => ?_⟩
      · rw [again, read, back]
      · rw [again, old_eq, ← others q hq outside]
        exact StringField.written_getElem field t b hq (elsewhere rfl)
  | false =>
    rw [hnew, if_neg Bool.false_ne_true] at again
    have read : (onRecord p b).getStringValue field.toField =
        some (Buffer.cString (Buffer.read b field.offset field.len)) := rfl
    constructor
    · rintro ⟨set, hset, back, kept⟩
      obtain rfl := Option.some.inj hset
      rw [again] at back kept
      refine ⟨Option.some.inj (read.symm.trans back), fun q hq outside => ?_⟩
      rw [← others q hq outside]
      exact kept q hq outside fun new => Bool.noConfusion new
    · rintro ⟨back, same⟩
      refine ⟨_, rfl, ?_, fun q hq outside _ => ?_⟩
      · rw [again, read, back]
      · rw [again]
        exact (others q hq outside).trans (same q hq outside)

end RecordSet

/-! ## Multi-part tables -/

namespace Content

variable {R : Type} {schema : MultiPartSchema R} {c : Content R}

theorem store_getLast? (schema : MultiPartSchema R) (c : Content R) (cut : Bool) (r : R) :
    ∃ t : Table R, (c.store schema cut r).stored.getLast? = some (t.written schema.toSchema r) := by
  have last (kept : List IndexRow) (row : IndexRow) (t : Table R) (name : Nat)
      (same : row.tableName = name) :
      (⟨Function.update c.parts name (t.append schema.toSchema r), kept ++ [row]⟩ :
        Content R).stored.getLast? = some (t.written schema.toSchema r) := by
    subst same
    simp [stored, files, Table.append]
  unfold store
  cases c.rows.getLast? with
  | none => exact ⟨_, last [] _ _ 0 rfl⟩
  | some row =>
    dsimp only
    split_ifs
    · unfold rotate
      cases (c.kept schema).getLast? with
      | none => exact ⟨_, last _ _ _ 0 rfl⟩
      | some before => exact ⟨_, last _ _ _ (before.tableName + 1) rfl⟩
    · exact ⟨_, last _ _ _ row.tableName (widenTo_tableName row _)⟩

theorem store_rows_ne_nil (schema : MultiPartSchema R) (c : Content R) (cut : Bool) (r : R) :
    (c.store schema cut r).rows ≠ [] := by
  obtain ⟨t, last⟩ := store_getLast? schema c cut r
  intro rows
  rw [stored, files, rows] at last
  cases last

theorem start_setPart (numbered : c.Numbered) {k : Nat} {row : IndexRow}
    (hrow : c.rows[k]? = some row) (table : Table R) :
    (c.setPart row.tableName table).start k = c.start k := by
  rw [start, start, files_setPart numbered hrow, List.take_set_of_le (Nat.le_refl k)]

end Content

namespace MultiPart

variable {R : Type} {schema : MultiPartSchema R} {s : MultiPart R}

theorem Editable.atRecord_rewrite (editable : s.Editable schema) {i : Nat}
    (here : s.AtRecord i) (r : R) :
    ((s.getIndexCount.2.setValues r).rewrite schema).2.AtRecord i := by
  obtain ⟨k, j, row, on, rfl⟩ := here
  have record : s.dataTable.records[j]? = some s.data.buffer := by
    rw [on.dataTable]
    exact on.record
  obtain ⟨saved, pos, buffer, -⟩ :=
    RecordSet.save_current schema.toSchema r editable.view.data on.pos record
  have flag : ((s.data.setRecordBuffer r).save schema.toSchema s.dataTable).2.2.feof = false := by
    have back : (s.data.setRecordBuffer r).fseek ((s.data.setRecordBuffer r).pos - 1) =
        (true, { s.data.setRecordBuffer r with pos := j, feof := false }) :=
      RecordSet.fseek_of_eq (by simp [RecordSet.setRecordBuffer, on.pos])
    have stored : (s.data.setRecordBuffer r).isNewRecord = false := editable.view.data
    simp only [RecordSet.save, RecordSet.update, back, stored]
    simp [RecordSet.setRecordBuffer, RecordSet.fwrite]
  have hj : j < s.dataTable.records.length := (List.getElem?_eq_some_iff.1 record).1
  refine ⟨k, j, row, ⟨on.rowAt, on.number, on.name, ?_, pos, flag⟩, ?_⟩
  · show ((Function.update s.parts s.dataName
      ((s.data.setRecordBuffer r).save schema.toSchema s.dataTable).2.1) row.tableName).records[j]? =
      some ((s.data.setRecordBuffer r).save schema.toSchema s.dataTable).2.2.buffer
    rw [← on.name, Function.update_self, saved, buffer]
    exact List.getElem?_set_self hj
  · have rewritten : ((s.getIndexCount.2.setValues r).rewrite schema).2.content =
        s.content.setPart row.tableName
          ((s.data.setRecordBuffer r).save schema.toSchema s.dataTable).2.1 := by
      rw [← on.name]
      rfl
    rw [rewritten, Content.start_setPart editable.numbered on.rowAt]

theorem Editable.setBuffer (editable : s.Editable schema) (b : R) :
    ({ s with buffer := b } : MultiPart R).Editable schema :=
  have sync := editable.sync
  { sync := ⟨sync.notNew, sync.name, sync.bound, sync.behind, sync.last, sync.empty, sync.flag,
      sync.named, sync.buffered⟩
    filled := editable.filled
    count := editable.count
    numbered := editable.numbered
    view := ⟨editable.view.table, editable.view.data⟩ }

theorem AtRecord.setBuffer {i : Nat} (here : s.AtRecord i) (b : R) :
    ({ s with buffer := b } : MultiPart R).AtRecord i := by
  obtain ⟨k, j, row, on, rfl⟩ := here
  exact ⟨k, j, row, ⟨on.rowAt, on.number, on.name, on.record, on.pos, on.flag⟩, rfl⟩

end MultiPart

namespace MultiPart

variable {n : Nat} {schema : MultiPartSchema (Vector UInt8 n)} {s : MultiPart (Vector UInt8 n)}
  {field : StringField schema.toSchema}

theorem AtRecord.getStringValue {i : Nat} (here : s.AtRecord i) (field : Field n) :
    s.getStringValue field =
      some (Buffer.cString (Buffer.read s.current field.offset field.len)) := by
  obtain ⟨k, j, row, on, -⟩ := here
  rw [MultiPart.getStringValue, RecordSet.getStringValue, on.pos]
  rfl

/-- A string set in a stored record is read back where a terminator follows it, and the other
fields are kept when the buffer held them. -/
theorem Editable.roundTrips_stored (editable : s.Editable schema) {i : Nat} (here : s.AtRecord i)
    (value : Text field.len) : s.RoundTrips field value s.current (fun _ => i) ↔
      schema.autoIncField.isSome ∧
      (value.chars.length = field.len ∨
        s.buffer[field.offset + value.chars.length]? = some 0) ∧
      field.Same s.buffer s.current := by
  have string := StringField.string_memcpy field s.buffer value
  have others := fun (q : Nat) (hq : q < n) (outside : ¬ field.Has q) =>
    StringField.memcpy_same field s.buffer value hq outside
  have set_eq : s.setStringValue field.toField value.chars =
      some (s.getIndexCount.2.setValues (Buffer.memcpy s.buffer field.offset value.chars
        (if value.chars.length < field.len then value.chars.length else field.len))) := by
    have inside := here.eof
    show (if s.eof.1 && !s.isNewRecord then none else _) = _
    rw [inside]
    rfl
  rw [RoundTrips, set_eq, ← string]
  generalize Buffer.memcpy s.buffer field.offset value.chars
    (if value.chars.length < field.len then value.chars.length else field.len) = b
    at string others ⊢
  have saved := save_stored (s := s.getIndexCount.2.setValues b) schema rfl
    ⟨editable.view.table, editable.view.data⟩
  cases hauto : schema.autoIncField with
  | none =>
    rw [hauto] at saved
    refine ⟨?_, fun holds => nomatch holds.1⟩
    rintro ⟨set, autoInc, hset, outcome, -⟩
    obtain rfl := Option.some.inj hset
    rw [saved] at outcome
    exact nomatch outcome
  | some auto =>
    rw [hauto] at saved
    have stored := (editable.rewrite_atRecord here b).1
    have still := editable.atRecord_rewrite here b
    have inside : i < s.stored.length := (List.getElem?_eq_some_iff.1 here.buffer).1
    have reads {again : MultiPart (Vector UInt8 n)}
        (content : again.content = ((s.getIndexCount.2.setValues b).rewrite schema).2.content)
        (there : again.AtRecord i) : again.current = b := by
      have records : again.stored = s.stored.set i b :=
        (congrArg Content.stored content).trans stored
      have current := there.buffer
      rw [records, List.getElem?_set_self inside] at current
      exact (Option.some.inj current).symm
    constructor
    · rintro ⟨set, autoInc, hset, -, back⟩
      obtain rfl := Option.some.inj hset
      rw [saved] at back
      obtain ⟨string, kept⟩ := back _ rfl still
      rw [still.getStringValue, reads rfl still] at string
      rw [reads rfl still] at kept
      refine ⟨rfl, Option.some.inj string, fun q hq outside => ?_⟩
      rw [← others q hq outside]
      refine kept q hq outside fun new => ?_
      rw [editable.view.table] at new
      exact nomatch new
    · rintro ⟨-, string, same⟩
      refine ⟨_, _, rfl, congrArg Prod.fst saved, fun again content there => ?_⟩
      rw [saved] at content
      rw [there.getStringValue, reads content there, string]
      exact ⟨rfl, fun q hq outside _ => (others q hq outside).trans (same q hq outside)⟩

theorem Editable.roundTrips_new (editable : s.Editable schema) (b : Vector UInt8 n)
    (value : Text field.len) : (((s.add schema).setValues b).RoundTrips field value b
        fun stored => stored.length - 1) ↔
      (value.chars.length = field.len ∨ b[field.offset + value.chars.length]? = some 0) := by
  have string := StringField.string_memcpy field b value
  have others := fun (q : Nat) (hq : q < n) (outside : ¬ field.Has q) =>
    StringField.memcpy_same field b value hq outside
  have set_eq : ((s.add schema).setValues b).setStringValue field.toField value.chars =
      some ((s.getIndexCount.2.add schema).setValues (Buffer.memcpy b field.offset value.chars
        (if value.chars.length < field.len then value.chars.length else field.len))) := by
    show (if ((s.add schema).setValues b).eof.1 && !true then none else _) = _
    rw [Bool.not_true, Bool.and_false]
    rfl
  rw [RoundTrips, set_eq, ← string]
  generalize Buffer.memcpy b field.offset value.chars
    (if value.chars.length < field.len then value.chars.length else field.len) = b'
    at string others ⊢
  have saved : ((s.getIndexCount.2.add schema).setValues b').save schema =
      (.saved (s.getIndexCount.2.store schema b').1, (s.getIndexCount.2.store schema b').2) := rfl
  obtain ⟨sync, content, -, -⟩ :=
    store_content schema editable.sync.getIndexCount editable.filled b'
  obtain ⟨t, last⟩ := Content.store_getLast? schema s.getIndexCount.2.content
    s.getIndexCount.2.appendFileMode b'
  rw [← content] at last
  have rows : (s.getIndexCount.2.store schema b').2.content.rows ≠ [] := by
    rw [content]
    exact Content.store_rows_ne_nil schema _ _ b'
  have filled : (s.getIndexCount.2.store schema b').2.content.Filled := by
    rw [content]
    exact editable.filled.store _ b'
  have there := ((sync.moveLast_atRecord schema filled).1 rows).2
  have same := (sync.moves_moveLast schema).1.content
  generalize (s.getIndexCount.2.store schema b').2 = stored at last there same saved
  have reads {again : MultiPart (Vector UInt8 n)} (content : again.content = stored.content)
      (there : again.AtRecord (again.stored.length - 1)) :
      again.current = t.written schema.toSchema b' := by
    have current := there.buffer
    have records : again.stored = stored.content.stored := congrArg Content.stored content
    rw [← List.getLast?_eq_getElem?, records, last] at current
    exact (Option.some.inj current).symm
  constructor
  · rintro ⟨set, autoInc, hset, -, back⟩
    obtain rfl := Option.some.inj hset
    have end_ : (stored.moveLast schema).2.stored.length - 1 =
        stored.content.stored.length - 1 := by
      rw [← same]
      rfl
    rw [← end_] at there
    rw [saved] at back
    obtain ⟨string, -⟩ := back _ same there
    rw [there.getStringValue, reads same there, StringField.read_written field] at string
    exact Option.some.inj string
  · intro string
    refine ⟨_, _, rfl, congrArg Prod.fst saved, fun again content there => ?_⟩
    rw [saved] at content
    rw [there.getStringValue, reads content there, StringField.read_written field, string]
    refine ⟨rfl, fun q hq outside elsewhere => ?_⟩
    rw [← others q hq outside]
    exact StringField.written_getElem field t b' hq (elsewhere rfl)

end MultiPart

/-! ## In every state -/

/-- A string is read back from a record set exactly when there is room for a terminator, and
from a multi-part table exactly when it is as wide as the field or the byte after it was zero
before; a stored record of a multi-part table can be saved at all only with an `AUTOINC` field.
The other fields are kept when the buffer that is edited held those of the record. -/
theorem setStringValue_iff (n : Nat) :
    (∀ (schema : Schema (Vector UInt8 n)) (field : StringField schema) (value : Text field.len)
      (t : Table (Vector UInt8 n)) (self : RecordSet (Vector UInt8 n)) (old : Vector UInt8 n),
      self.Editing t old → (self.RoundTrips t field value old ↔
        value.chars.length < field.len ∧ field.Same self.buffer old)) ∧
    ∀ (schema : MultiPartSchema (Vector UInt8 n)), 0 < schema.maxFiles →
      ∀ (field : StringField schema.toSchema) (value : Text field.len)
        (ops : List (MultiPart.EditOp (Vector UInt8 n))) (b : Vector UInt8 n),
      (∀ i, (MultiPart.edited schema ops).AtRecord i →
        (({ MultiPart.edited schema ops with buffer := b }).RoundTrips field value
            (MultiPart.edited schema ops).current (fun _ => i) ↔
          schema.autoIncField.isSome ∧
          (value.chars.length = field.len ∨ b[field.offset + value.chars.length]? = some 0) ∧
          field.Same b (MultiPart.edited schema ops).current)) ∧
      ((((MultiPart.edited schema ops).add schema).setValues b).RoundTrips field value b
          (fun stored => stored.length - 1) ↔
        (value.chars.length = field.len ∨ b[field.offset + value.chars.length]? = some 0)) := by
  refine ⟨fun _ _ value _ _ _ editing => editing.roundTrips_iff value, ?_⟩
  intro schema some_part field value ops b
  have editable := MultiPart.editable_edited schema some_part ops
  refine ⟨fun i here => ?_, editable.roundTrips_new b value⟩
  exact (editable.setBuffer b).roundTrips_stored (here.setBuffer b) value

/-- A table of names of at most four bytes, each with an id of four. -/
def namesSchema : MultiPartSchema (Vector UInt8 8) where
  blank := Vector.replicate 8 0
  autoIncField := none
  idField := ⟨4, fun r => ((r[0].toNat * 256 + r[1].toNat) * 256 + r[2].toNat) * 256 + r[3].toNat⟩
  dateField := none
  maxRecordCount := some 50
  maxFiles := 2
  id_kept _ := .inl rfl
  id_read h := nomatch h
  id_write h := nomatch h
  date_write h := nomatch h

def nameField : StringField namesSchema.toSchema where
  offset := 4
  len := 4
  pos := by decide
  inside := by decide
  autoInc := none
  apart a h := nomatch h
  writes h := nomatch h

def nameAda : Text nameField.len := ⟨[65, 68, 65], by decide, by decide⟩

theorem setStringValue_iff_names :
    ((((MultiPart.edited namesSchema []).add namesSchema).setValues
        (Vector.replicate 8 0)).RoundTrips nameField nameAda (Vector.replicate 8 0)
        (fun stored => stored.length - 1) ↔
      (nameAda.chars.length = nameField.len ∨
        (Vector.replicate 8 (0 : UInt8))[nameField.offset + nameAda.chars.length]? = some 0)) :=
  (((setStringValue_iff 8).2 namesSchema (by decide) nameField nameAda [] _).2)

/-- In a record set of names, `ABCD` is read back as `ABC`; in the multi-part table, `XY` set
over `ABCD` is read back as `XYCD`. -/
theorem setStringValue_fails :
    ¬ ((RecordSet.open namesSchema.toSchema).add namesSchema.toSchema).RoundTrips Table.empty
        nameField ⟨[65, 66, 67, 68], by decide, by decide⟩ (Vector.replicate 8 0) ∧
    ¬ (((MultiPart.edited namesSchema []).add namesSchema).setValues
        #v[0, 0, 0, 1, 65, 66, 67, 68]).RoundTrips nameField ⟨[88, 89], by decide, by decide⟩
        #v[0, 0, 0, 1, 65, 66, 67, 68] (fun stored => stored.length - 1) := by
  constructor
  · intro trip
    have editing : ((RecordSet.open namesSchema.toSchema).add namesSchema.toSchema).Editing
        Table.empty (Vector.replicate 8 0) := .inl ⟨rfl, rfl⟩
    exact absurd ((editing.roundTrips_iff _).1 trip).1 (by decide)
  · intro trip
    have editable := MultiPart.editable_edited namesSchema (by decide) []
    exact absurd ((editable.roundTrips_new _ _).1 trip) (by decide)

end CimArm
