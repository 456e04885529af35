import CimArm.Dao.DepositDAO

/-!
# The last deposit

The number of the next deposit comes from the last one stored.  In every state that storing
deposits of growing numbers, loading and restarting lead to, `loadLast` gives the deposit that was
stored last, with all its details (`run_loadLast`).
-/

namespace CimArm.DepositDAO

open List

variable {tables : DepositTables} {registry : Registry} {s s' : DepositDAO}
  {written : List Deposit} {d : Deposit}

/-- The last header of the table is that of the last deposit. -/
def EndsWith (s : DepositDAO) (written : List Deposit) : Prop :=
  s.deposits.stored.getLast? = written.getLast?.map DepositRecord.ofDeposit

theorem EndsWith.of_keeps (ends : s.EndsWith written) (keeps : s.Keeps s') :
    s'.EndsWith written := by
  have stored : s'.deposits.stored = s.deposits.stored :=
    congrArg Content.stored keeps.1.1.content
  rw [EndsWith, stored]
  exact ends

theorem EndsWith.reopen (ends : s.EndsWith written) (sound : s.Sound tables written) :
    (s.reopen tables).EndsWith written := by
  obtain ⟨level, aligned⟩ := sound.aligned
  obtain ⟨-, content⟩ := MultiPart.reopen_content sound.deposits aligned.wellFormed.toShaped
  have stored : (s.reopen tables).deposits.stored = s.deposits.stored :=
    (congrArg Content.stored content).trans (Content.reload_stored _ _)
  rw [EndsWith, stored]
  exact ends

theorem storeDetails_deposits (lines : List DepositDetail) (s : DepositDAO) :
    (lines.foldl (saveDepositDetail tables d) s).deposits = s.deposits := by
  induction lines generalizing s with
  | nil => rfl
  | cons line lines ih => exact ih (s.saveDepositDetail tables d line)

theorem Sound.endsWith_store (sound : s.Sound tables written) (d : Deposit) :
    (s.store tables d).EndsWith (written ++ [d]) := by
  obtain ⟨level, aligned⟩ := sound.aligned
  obtain ⟨-, content, -, -, -⟩ :=
    storeHeader_eq d sound.deposits sound.noAppend sound.noCut aligned
  have stored := congrArg Content.stored content
  rw [Content.store_stored tables.two_le aligned.wellFormed.toShaped,
    Content.newRecord_of_none rfl] at stored
  have headers : (s.store tables d).deposits = (s.storeHeader tables d).deposits :=
    storeDetails_deposits _ _
  rw [EndsWith, headers, getLast?_append, getLast?_singleton]
  refine (congrArg getLast? stored).trans ?_
  rw [getLast?_append, getLast?_singleton]
  rfl

theorem Sound.run_endsWith (sound : s.Sound tables written) (ends : s.EndsWith written)
    (ops : List Op) (numbers : (written ++ stored ops).Pairwise fun a b => a.number < b.number)
    (wide : ∀ d ∈ stored ops, d.number < ulongSize) :
    (DepositDAO.run tables registry ops s).EndsWith (written ++ stored ops) := by
  induction ops generalizing s written with
  | nil => exact (append_nil written).symm ▸ ends
  | cons op ops ih =>
    cases op with
    | store d =>
      have split : written ++ stored (.store d :: ops) = (written ++ [d]) ++ stored ops :=
        (append_assoc written [d] _).symm
      have newest : ∀ d' ∈ written, d'.number < d.number := fun d' mem =>
        (pairwise_append.1 numbers).2.2 d' mem d mem_cons_self
      rw [split] at numbers ⊢
      exact ih (sound.store newest (wide d mem_cons_self)) (sound.endsWith_store d) numbers
        fun d' mem => wide d' (mem_cons_of_mem d mem)
    | loadById anId =>
      have keeps := @keeps_loadById tables registry s sound.deposits sound.details anId
      exact ih (sound.of_keeps keeps) (ends.of_keeps keeps) numbers wide
    | loadLast =>
      have keeps := @keeps_loadLast tables registry s sound.deposits sound.details
      exact ih (sound.of_keeps keeps) (ends.of_keeps keeps) numbers wide
    | reopen => exact ih sound.reopen (ends.reopen sound) numbers wide

theorem Sound.loadLast_some (sound : s.Sound tables written)
    (numbers : written.Pairwise fun a b => a.number < b.number)
    (wide : ∀ d ∈ written, d.number < ulongSize) (mem : d ∈ written)
    (last : s.deposits.stored.getLast? = some (.ofDeposit d)) :
    (s.loadLast tables registry).1 = some (readBack registry d) := by
  obtain ⟨level, aligned⟩ := sound.aligned
  have filled : s.deposits.content.Filled :=
    MultiPart.filled_of_shaped aligned.wellFormed.toShaped
  have rows : s.deposits.content.rows ≠ [] := by
    intro empty
    have stored : s.deposits.stored = [] := by
      show (s.deposits.content.rows.map _).flatMap _ = []
      rw [empty]
      rfl
    rw [stored] at last
    cases last
  obtain ⟨hit, here⟩ := (sound.deposits.moveLast_atRecord tables.headers filled).1 rows
  have buffer := here.buffer
  have content : (s.deposits.moveLast tables.headers).2.stored = s.deposits.stored :=
    congrArg Content.stored (sound.deposits.moves_moveLast tables.headers).1.content
  have number : (DepositRecord.ofDeposit d).number = d.number := toULong_of_lt (wide d mem)
  have length : s.deposits.content.stored.length = s.deposits.stored.length := rfl
  rw [content, length, ← getLast?_eq_getElem?, last] at buffer
  have header := (Option.some.inj buffer).symm
  have lines : s.details.stored.filter (fun r => r.number = d.number) = d.detailRecords := by
    have all := aligned.filter_stored (mem_of_getLast? last)
    rw [show tables.headers.idField.get (.ofDeposit d) = d.number from number] at all
    exact all.trans (filter_detailRecords numbers wide mem)
  rw [DepositDAO.loadLast]
  generalize s.deposits.moveLast tables.headers = step at hit header ⊢
  obtain ⟨hit', deposits⟩ := step
  obtain rfl : hit' = true := hit
  have read := @readDetails_eq tables registry
    { Deposit.ofRecord registry deposits.data.buffer with number := deposits.data.buffer.number }
    _ sound.details (aligned.shaped.sorted aligned.ids)
  simp only at header
  simp only [header, number, lines] at read
  simp only [getDepositFromRecordSet, header, number, Bool.not_true, Bool.false_eq_true, if_false,
    read]
  rfl

theorem Sound.loadLast_none (sound : s.Sound tables written)
    (last : s.deposits.stored.getLast? = none) : (s.loadLast tables registry).1 = none := by
  obtain ⟨level, aligned⟩ := sound.aligned
  have filled : s.deposits.content.Filled :=
    MultiPart.filled_of_shaped aligned.wellFormed.toShaped
  have rows : s.deposits.content.rows = [] := by
    by_contra some_
    obtain ⟨-, here⟩ := (sound.deposits.moveLast_atRecord tables.headers filled).1 some_
    have low := here.lt
    have content : (s.deposits.moveLast tables.headers).2.content.stored = s.deposits.stored :=
      congrArg Content.stored (sound.deposits.moves_moveLast tables.headers).1.content
    rw [content, getLast?_eq_none_iff.1 last] at low
    exact Nat.not_lt_zero _ low
  have miss := (sound.deposits.moveLast_atRecord tables.headers filled).2 rows
  rw [DepositDAO.loadLast]
  generalize s.deposits.moveLast tables.headers = step at miss
  obtain ⟨hit, deposits⟩ := step
  obtain rfl : hit = false := miss
  rfl

/-- In every state reached by storing deposits of growing numbers, loading deposits and
restarting, the last deposit is the one stored last, with all its details; before the first one
there is none. -/
theorem run_loadLast (tables : DepositTables) (registry : Registry) (ops : List Op)
    (numbers : (stored ops).Pairwise fun a b => a.number < b.number)
    (wide : ∀ d ∈ stored ops, d.number < ulongSize) :
    ((run tables registry ops (created tables)).loadLast tables registry).1 =
      (stored ops).getLast?.map (readBack registry) := by
  have start := sound_created tables
  have empty : (created tables).EndsWith [] := by
    have content := (MultiPart.created_content tables.headers).2
    show (MultiPart.created tables.headers).content.stored.getLast? = none
    rw [content]
    rfl
  have sound := @Sound.run tables registry _ _ start ops numbers wide
  have ends : (run tables registry ops (created tables)).EndsWith (stored ops) :=
    start.run_endsWith empty ops numbers wide
  rw [EndsWith] at ends
  cases last : (stored ops).getLast? with
  | none =>
    rw [last] at ends
    exact sound.loadLast_none ends
  | some d =>
    rw [last] at ends
    exact sound.loadLast_some numbers wide (mem_of_getLast? last) ends

theorem run_loadLast_oneByFile :
    ((run oneByFile ⟨[], [], [], [], [], []⟩ [.store (twoNotes 1), .reopen, .store (twoNotes 2)]
      (created oneByFile)).loadLast oneByFile ⟨[], [], [], [], [], []⟩).1 =
      some (readBack ⟨[], [], [], [], [], []⟩ (twoNotes 2)) :=
  run_loadLast oneByFile ⟨[], [], [], [], [], []⟩
    [.store (twoNotes 1), .reopen, .store (twoNotes 2)] (by decide) (by decide)

end CimArm.DepositDAO
