import CimArm.Db.Alignment
import CimArm.Db.Run
import CimArm.Db.Walk

/-!
# What a table still has of what was saved

A table without auto-increment field keeps the newest of the records saved into it:
what is stored is a suffix of what was written, and starting a part drops the
oldest ones (`Retains.store`).  Over a whole run the same holds of any table, up to the numbers
that it hands out (`run_newest`).
-/

namespace CimArm

open List

variable {R : Type} {schema : MultiPartSchema R}

/-- Saving a record keeps the newest of the stored records and adds the new one. -/
theorem Content.stored_store_suffix (two : 2 ≤ schema.maxFiles) {c : Content R}
    (shaped : c.Shaped schema) (cut : Bool) (r : R) :
    (c.store schema cut r).stored <:+ c.stored ++ [c.newRecord schema r] := by
  obtain ⟨gone, stay⟩ := c.storedIn_staying_suffix schema cut
  rw [store_stored two shaped]
  refine ⟨gone, ?_⟩
  rw [← append_assoc, stay]

theorem Content.store_suffix (two : 2 ≤ schema.maxFiles) (noAuto : schema.autoIncField = none)
    {c : Content R} (shaped : c.Shaped schema) (cut : Bool) (r : R) {written : List R}
    (suffix : c.stored <:+ written) : (c.store schema cut r).stored <:+ written ++ [r] := by
  obtain ⟨dropped, rfl⟩ := suffix
  obtain ⟨gone, stay⟩ := c.stored_store_suffix two shaped cut r
  rw [newRecord_of_none noAuto] at stay
  refine ⟨dropped ++ gone, ?_⟩
  rw [append_assoc, stay, append_assoc]

namespace MultiPart

/-- A table in step with its cursors that holds the newest of the records written. -/
structure Retains (schema : MultiPartSchema R) (written : List R) (s : MultiPart R) : Prop where
  synced : s.Synced
  shaped : s.content.Shaped schema
  noAppend : s.appendFileMode = false
  suffix : s.content.stored <:+ written

namespace Retains

variable {written : List R} {s s' : MultiPart R}

theorem filled (kept : s.Retains schema written) : s.content.Filled :=
  fun row hrow => (kept.shaped.describes row hrow).nonempty

theorem created (schema : MultiPartSchema R) : (MultiPart.created schema).Retains schema [] := by
  obtain ⟨sync, content⟩ := created_content schema
  refine ⟨sync, shaped_created schema, (open_flags schema _ _ (Nat.zero_le _)).1, ?_⟩
  rw [content]
  exact suffix_rfl

theorem of_keeps (kept : s.Retains schema written) (keeps : s.Keeps s') :
    s'.Retains schema written := by
  obtain ⟨frame, sync⟩ := keeps
  refine ⟨sync, ?_, frame.appendFileMode.trans kept.noAppend, ?_⟩
  · rw [frame.content]
    exact kept.shaped
  · rw [frame.content]
    exact kept.suffix

theorem store (two : 2 ≤ schema.maxFiles) (noAuto : schema.autoIncField = none)
    (kept : s.Retains schema written) (r : R) :
    (s.store schema r).2.Retains schema (written ++ [r]) := by
  obtain ⟨sync, content, mode, -⟩ := store_content schema kept.synced
    (filled_of_shaped kept.shaped) r
  refine ⟨sync, ?_, mode, ?_⟩
  · rw [content]
    exact kept.shaped.store two _ r
  · rw [content]
    exact Content.store_suffix two noAuto kept.shaped _ r kept.suffix

theorem reopen (kept : s.Retains schema written) : (s.reopen schema).Retains schema written := by
  obtain ⟨sync, content⟩ := reopen_content kept.synced kept.shaped
  refine ⟨sync, ?_, (reopen_flags kept.shaped).1, ?_⟩
  · rw [content]
    exact kept.shaped.reload
  · rw [content, Content.reload_stored]
    exact kept.suffix

end Retains

/-! ## Over whole runs -/

section

variable {α : Type}

/-- What a number handed out does not change. -/
def Ignores (schema : MultiPartSchema R) (f : R → α) : Prop :=
  ∀ read write, schema.autoIncField = some (read, write) → ∀ n r, f (write n r) = f r

/-- A table in step with its cursors that holds the newest of what was written. -/
structure Newest (schema : MultiPartSchema R) (f : R → α) (written : List α) (s : MultiPart R) :
    Prop where
  synced : s.Synced
  shaped : s.content.Shaped schema
  suffix : s.content.stored.map f <:+ written
  last : s.content.stored = [] → written = []

variable {f : R → α} {written : List α} {s : MultiPart R}

theorem Ignores.newRecord (ignores : Ignores schema f) (c : Content R) (r : R) :
    f (c.newRecord schema r) = f r := by
  rw [Content.newRecord, Table.written]
  cases auto : schema.autoIncField with
  | none => rfl
  | some field => exact ignores field.1 field.2 auto _ r

theorem Newest.save (newest : s.Newest schema f written) (two : 2 ≤ schema.maxFiles)
    (ignores : Ignores schema f) (r : R) :
    (s.store schema r).2.Newest schema f (written ++ [f r]) := by
  obtain ⟨sync, content, -, -⟩ := store_content schema newest.synced
    (filled_of_shaped newest.shaped) r
  refine ⟨sync, content ▸ newest.shaped.store two _ r, ?_, ?_⟩
  · have kept := (Content.stored_store_suffix two newest.shaped s.appendFileMode r).map f
    rw [map_append, map_singleton, ignores.newRecord] at kept
    obtain ⟨forgotten, whole⟩ := newest.suffix
    rw [content, ← whole, append_assoc]
    exact kept.trans (suffix_append _ _)
  · intro none
    rw [content, Content.store_stored two newest.shaped] at none
    exact absurd none (append_ne_nil_of_right_ne_nil _ (cons_ne_nil _ _))

theorem Newest.apply (newest : s.Newest schema f written) (two : 2 ≤ schema.maxFiles)
    (ignores : Ignores schema f) (op : Op R) :
    (op.apply schema s).Newest schema f (written ++ (saved [op]).map f) := by
  rcases op.cases with ⟨r, rfl⟩ | rfl | reads
  · exact newest.save two ignores r
  · obtain ⟨sync, content⟩ := reopen_content newest.synced newest.shaped
    have stored : (s.reopen schema).content.stored = s.content.stored := by
      rw [content, Content.reload_stored]
    refine ⟨sync, content ▸ newest.shaped.reload, ?_, ?_⟩
    · show (s.reopen schema).content.stored.map f <:+ written ++ []
      rw [append_nil, stored]
      exact newest.suffix
    · intro none
      exact (append_nil _).trans (newest.last (stored ▸ none))
  · obtain ⟨sync, content, -⟩ := reads.apply schema newest.synced
    rw [reads.saved, saved, filterMap_nil, map_nil, append_nil]
    exact ⟨sync, content.symm ▸ newest.shaped, content.symm ▸ newest.suffix,
      content.symm ▸ newest.last⟩

theorem Newest.run (newest : s.Newest schema f written) (two : 2 ≤ schema.maxFiles)
    (ignores : Ignores schema f) (ops : List (Op R)) :
    (run schema ops s).Newest schema f (written ++ (saved ops).map f) := by
  induction ops generalizing s written with
  | nil => exact (append_nil written).symm ▸ newest
  | cons op ops ih =>
    have step := ih (newest.apply two ignores op)
    rw [append_assoc, ← map_append, saved, saved, ← filterMap_append] at step
    exact step

/-- In every state reached from an empty table, what is stored are the newest of the records that
were saved, in their order and up to the numbers handed out, and the last one is among them. -/
theorem run_newest (schema : MultiPartSchema R) (two : 2 ≤ schema.maxFiles)
    (ignores : Ignores schema f) (ops : List (Op R)) :
    (run schema ops (created schema)).stored.map f <:+ (saved ops).map f ∧
      ((run schema ops (created schema)).stored = [] → saved ops = []) := by
  have sound := sound_created schema
  have empty : (created schema).content.stored = [] := by
    rw [(created_content schema).2]
    rfl
  have start : (created schema).Newest schema f [] :=
    ⟨sound.sync, sound.wf.toShaped, by rw [empty]; exact suffix_rfl, fun _ => rfl⟩
  have newest := start.run two ignores ops
  exact ⟨newest.suffix, fun none => map_eq_nil_iff.1 (newest.last none)⟩

theorem run_newest_log :
    (run logSchema [.save (0, 5), .reopen, .save (0, 7), .moveFirst, .save (0, 9)]
      (created logSchema)).stored.map Prod.snd <:+ [5, 7, 9] :=
  (run_newest logSchema (by decide) (fun _ _ h n r => by
    obtain ⟨-, rfl⟩ := Prod.mk.inj (Option.some.inj h)
    rfl) _).1

end

end MultiPart

end CimArm
