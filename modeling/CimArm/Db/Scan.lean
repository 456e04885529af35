import CimArm.Db.Walk

/-!
# Loops that may stop

A loop over the records of a table from the current one on, whose body may stop it or
raise, as the requests write them.  From a record on it runs over the stored records
(`AtRecord.scan`).  A search stands on the record that it finds (`Synced.findLast_at`,
`AtRecord.forwardUntil`).  A filtered record set skips the records that fail its filters;
where all records ahead pass, it moves as the table does (`advances_findNext`).
-/

namespace CimArm.MultiPart

open List

variable {R σ : Type}

/-- What the body of a loop does with a record: raise, `break` or go on. -/
inductive Visit (σ : Type) : Type
  | raise
  | stop (state : σ)
  | next (state : σ)

/-- `while (![rs eof]) { ...; if (![rs moveNext]) break; }`. Nothing is left of the state
after an exception. -/
def scan (advance : MultiPart R → Bool × MultiPart R) (body : σ → R → Visit σ) :
    Nat → MultiPart R → σ → Option σ
  | 0, _, state => some state
  | fuel + 1, self, state =>
    let (atEnd, self) := self.eof
    if atEnd then some state
    else match body state self.data.buffer with
      | .raise => none
      | .stop state => some state
      | .next state =>
        let (found, self) := advance self
        if !found then some state else scan advance body fuel self state

/-- The same loop over a list. -/
def scanRows (body : σ → R → Visit σ) : List R → σ → Option σ
  | [], state => some state
  | r :: rs, state =>
    match body state r with
    | .raise => none
    | .stop state => some state
    | .next state => scanRows body rs state

/-- `findNext` of a filtered record set, once the first call is made. -/
def findNext (schema : MultiPartSchema R) (checkCondition : R → Bool) (self : MultiPart R) :
    Bool × MultiPart R :=
  let (found, self) := self.moveNext schema
  if !found then (false, self) else loop (self.stored.length + 1) self
where
  loop : Nat → MultiPart R → Bool × MultiPart R
    | 0, self => (false, self)
    | fuel + 1, self =>
      let (atEnd, self) := self.eof
      if atEnd then (false, self)
      else if checkCondition self.data.buffer then (true, self)
      else loop fuel (self.moveNext schema).2

section scan

variable {schema : MultiPartSchema R} {s : MultiPart R} {i : Nat}

/-- A step to the next record, from some record of a table on. -/
def Advances (advance : MultiPart R → Bool × MultiPart R) (c : Content R) (i : Nat) : Prop :=
  ∀ (s : MultiPart R) (j : Nat), s.Synced → s.content = c → i ≤ j → s.AtRecord j →
    (advance s).2.Synced ∧ (advance s).2.content = c ∧
    (j + 1 < c.stored.length → (advance s).1 = true ∧ (advance s).2.AtRecord (j + 1)) ∧
    (c.stored.length ≤ j + 1 → (advance s).1 = false)

theorem advances_moveNext (schema : MultiPartSchema R) {c : Content R} (filled : c.Filled)
    (i : Nat) : Advances (MultiPart.moveNext schema) c i := by
  intro s j sync same _ here
  have keeps := sync.moves_moveNext schema
  obtain ⟨step, last⟩ := here.moveNext schema sync (same ▸ filled)
  rw [same] at step last
  exact ⟨keeps.2, keeps.1.content.trans same, step, fun exhausted => (last exhausted).1⟩

theorem advances_findNext (schema : MultiPartSchema R) {c : Content R} (filled : c.Filled)
    (checkCondition : R → Bool) (i : Nat)
    (pass : ∀ j r, i ≤ j → c.stored[j]? = some r → checkCondition r = true) :
    Advances (findNext schema checkCondition) c i := by
  intro s j sync same le here
  obtain ⟨sync', content', step, last⟩ := advances_moveNext schema filled i s j sync same le here
  rw [findNext]
  generalize s.moveNext schema = moved at sync' content' step last ⊢
  obtain ⟨found, s₁⟩ := moved
  rcases Nat.lt_or_ge (j + 1) c.stored.length with more | exhausted
  · obtain ⟨hit, there⟩ := step more
    obtain rfl : found = true := hit
    have read : s₁.content.stored[j + 1]? = some s₁.data.buffer := there.buffer
    rw [content'] at read
    have stays : findNext.loop schema checkCondition (s₁.stored.length + 1) s₁ =
        (true, s₁.getIndexCount.2) := by
      rw [findNext.loop, there.eof_eq]
      exact if_pos (pass _ _ (Nat.le_succ_of_le le) read)
    simp only [Bool.not_true, Bool.false_eq_true, if_false]
    rw [stays]
    have ended := sync'.moves_getIndexCount
    exact ⟨ended.2, ended.1.content.trans content', fun _ => ⟨rfl, there.eof_at⟩,
      fun exhausted => absurd more (Nat.not_lt.2 exhausted)⟩
  · obtain rfl : found = false := last exhausted
    exact ⟨sync', content', fun more => absurd more (Nat.not_lt.2 exhausted), fun _ => rfl⟩

theorem AtRecord.scan {advance : MultiPart R → Bool × MultiPart R} (body : σ → R → Visit σ)
    (fuel : Nat) (state : σ) (advances : Advances advance s.content i) (sync : s.Synced)
    (here : s.AtRecord i) (enough : s.content.stored.length < i + fuel) :
    s.scan advance body fuel state = scanRows body (s.content.stored.drop i) state := by
  induction fuel generalizing s i state with
  | zero => exact absurd here.lt (by omega)
  | succ fuel ih =>
    have ended := sync.moves_getIndexCount
    rw [MultiPart.scan, here.eof_eq]
    simp only [getIndexCount_buffer, Bool.false_eq_true, if_false]
    rw [here.drop_eq, scanRows]
    cases body state s.data.buffer with
    | raise => rfl
    | stop state => rfl
    | next state =>
      obtain ⟨sync', content', step, last⟩ := advances _ i ended.2 rfl (Nat.le_refl i) here.eof_at
      simp only
      generalize advance s.getIndexCount.2 = moved at sync' content' step last ⊢
      obtain ⟨found, s₂⟩ := moved
      change s₂.content = s.content at content'
      rcases Nat.lt_or_ge (i + 1) s.content.stored.length with more | final
      · obtain ⟨hit, there⟩ := step more
        obtain rfl : found = true := hit
        have later : Advances advance s₂.content (i + 1) := by
          rw [content']
          exact fun s j sync same le => advances s j sync same (Nat.le_of_succ_le le)
        have run := ih state later sync' there (by rw [content']; omega)
        simp only [Bool.not_true, Bool.false_eq_true, if_false]
        rw [run, content']
      · obtain rfl : found = false := last final
        rw [drop_eq_nil_of_le final]
        rfl

end scan

/-! ## Where a search stands -/

/-- `while (![rs eof]) { if (...) break; [rs moveNext]; }` -/
def forwardUntil (schema : MultiPartSchema R) (p : R → Bool) : Nat → MultiPart R → MultiPart R
  | 0, self => self
  | fuel + 1, self =>
    let (atEnd, self) := self.eof
    if atEnd then self
    else if p self.data.buffer then self
    else forwardUntil schema p fuel (self.moveNext schema).2

section search

variable {schema : MultiPartSchema R} {s : MultiPart R} {i : Nat}

theorem AtRecord.backUntil_at (schema : MultiPartSchema R) (verdict : R → Option Bool)
    (fuel : Nat) (sync : s.Synced) (filled : s.content.Filled) (here : s.AtRecord i) {r : R}
    (found : (s.backUntil schema verdict fuel).1 = some r) :
    ∃ j, (s.backUntil schema verdict fuel).2.AtRecord j ∧
      s.content.stored[j]? = some r ∧ verdict r = some true := by
  induction fuel generalizing s i with
  | zero => cases found
  | succ fuel ih =>
    have back := sync.moves_movePrev schema
    obtain ⟨before, start⟩ := here.movePrev schema sync filled
    have read : s.content.stored[i]? = some s.data.buffer := here.buffer
    rw [MultiPart.backUntil, here.bof] at found ⊢
    simp only [Bool.false_eq_true, if_false] at found ⊢
    cases decided : verdict s.data.buffer with
    | some stop =>
      rw [decided] at found
      cases stop with
      | false => cases found
      | true =>
        obtain rfl := Option.some.inj found
        exact ⟨i, here, read, decided⟩
    | none =>
      rw [decided] at found
      simp only at found ⊢
      rcases Nat.eq_zero_or_pos i with first | positive
      · cases fuel with
        | zero => cases found
        | succ fuel =>
          rw [MultiPart.backUntil, (start first).2.bof] at found
          cases found
      · have rest := ih back.2 (back.1.content ▸ filled) (before positive).2 found
        rw [back.1.content] at rest
        exact rest

theorem Synced.findLast_at (schema : MultiPartSchema R) (sync : s.Synced)
    (filled : s.content.Filled) (verdict : R → Option Bool) {r : R}
    (found : (s.findLast schema verdict).1 = some r) :
    ∃ j, (s.findLast schema verdict).2.AtRecord j ∧
      s.content.stored[j]? = some r ∧ verdict r = some true := by
  have keeps := sync.moves_moveLast schema
  obtain ⟨last, none⟩ := sync.moveLast_atRecord schema filled
  rw [findLast] at found ⊢
  by_cases rows : s.content.rows = []
  · have failed := none rows
    generalize s.moveLast schema = step at failed found ⊢
    obtain ⟨hit, s₁⟩ := step
    obtain rfl : hit = false := failed
    cases found
  · obtain ⟨hit, here⟩ := last rows
    generalize s.moveLast schema = step at keeps hit here found ⊢
    obtain ⟨moved, s₁⟩ := step
    obtain rfl : moved = true := hit
    have content : s₁.content = s.content := keeps.1.content
    have stands := AtRecord.backUntil_at schema verdict _ keeps.2 (content ▸ filled) here found
    rw [content] at stands
    exact stands

theorem forwardUntil_eof (p : R → Bool) (fuel : Nat) (exhausted : s.eof.1 = true) :
    (s.forwardUntil schema p fuel).eof.1 = true := by
  cases fuel with
  | zero => exact exhausted
  | succ fuel =>
    have again : s.eof.2.eof.1 = true := exhausted
    rw [forwardUntil]
    generalize s.eof = step at exhausted again ⊢
    obtain ⟨atEnd, s₁⟩ := step
    obtain rfl : atEnd = true := exhausted
    exact again

theorem Synced.moves_forwardUntil (schema : MultiPartSchema R) (sync : s.Synced) (p : R → Bool)
    (fuel : Nat) : s.Moves (s.forwardUntil schema p fuel) := by
  induction fuel generalizing s with
  | zero => exact sync.moves
  | succ fuel ih =>
    have ended : s.Moves s.eof.2 := sync.moves_getIndexCount
    rw [MultiPart.forwardUntil]
    generalize s.eof = step at ended ⊢
    obtain ⟨atEnd, s₁⟩ := step
    have next := ended.2.moves_moveNext schema
    cases atEnd with
    | true => exact ended
    | false =>
      simp only [Bool.false_eq_true, if_false]
      split_ifs
      · exact ended
      · exact ended.trans (next.trans (ih next.2))

/-- A forward search from a record stands on the first one ahead with the property, or
is at the end when there is none. -/
theorem AtRecord.forwardUntil (schema : MultiPartSchema R) (p : R → Bool) (fuel : Nat)
    (sync : s.Synced) (filled : s.content.Filled) (here : s.AtRecord i)
    (enough : s.content.stored.length < i + fuel) :
    (∃ j r, i ≤ j ∧ (s.forwardUntil schema p fuel).AtRecord j ∧
        s.content.stored[j]? = some r ∧ p r = true ∧
        ∀ k r, i ≤ k → k < j → s.content.stored[k]? = some r → p r = false) ∨
      (s.forwardUntil schema p fuel).eof.1 = true ∧
        ∀ k r, i ≤ k → s.content.stored[k]? = some r → p r = false := by
  induction fuel generalizing s i with
  | zero => exact absurd here.lt (by omega)
  | succ fuel ih =>
    have read : s.content.stored[i]? = some s.data.buffer := here.buffer
    obtain ⟨next, step, last⟩ := here.ahead schema sync filled
    rw [MultiPart.forwardUntil, here.eof_eq]
    simp only [Bool.false_eq_true, if_false]
    rw [getIndexCount_buffer]
    by_cases stop : p s.data.buffer = true
    · rw [if_pos stop]
      exact .inl ⟨i, _, Nat.le_refl i, here.eof_at, read, stop, fun k r le lt =>
        absurd lt (Nat.not_lt.2 le)⟩
    · rw [if_neg stop]
      have passed : ∀ r, s.content.stored[i]? = some r → p r = false := fun r hr =>
        Option.some.inj (read.symm.trans hr) ▸ (Bool.not_eq_true _ ▸ stop)
      have nextContent := next.1.content
      rcases Nat.lt_or_ge (i + 1) s.content.stored.length with more | final
      · have result := ih next.2 (nextContent ▸ filled) (step more) (by rw [nextContent]; omega)
        rw [nextContent] at result
        refine result.imp ?_ ?_
        · rintro ⟨j, r, le, there, hr, holds, before⟩
          refine ⟨j, r, Nat.le_of_succ_le le, there, hr, holds, fun k a low high ha => ?_⟩
          rcases Nat.eq_or_lt_of_le low with rfl | low
          · exact passed a ha
          · exact before k a low high ha
        · rintro ⟨exhausted, none⟩
          refine ⟨exhausted, fun k a low ha => ?_⟩
          rcases Nat.eq_or_lt_of_le low with rfl | low
          · exact passed a ha
          · exact none k a low ha
      · refine .inr ⟨forwardUntil_eof p fuel (last final), fun k a low ha => ?_⟩
        rcases Nat.eq_or_lt_of_le low with rfl | low
        · exact passed a ha
        · have := (List.getElem?_eq_some_iff.1 ha).1
          omega

/-! ## Filtered record sets -/

/-- `find` of a filtered record set: from before the first record on. -/
def filteredFind (schema : MultiPartSchema R) (checkCondition : R → Bool) (self : MultiPart R) :
    Bool × MultiPart R :=
  findNext schema checkCondition (self.moveBeforeFirst schema).2

theorem findNext_loop_snd (checkCondition : R → Bool) (fuel : Nat) (s : MultiPart R) :
    (findNext.loop schema checkCondition fuel s).2 = s.forwardUntil schema checkCondition fuel := by
  induction fuel generalizing s with
  | zero => rfl
  | succ fuel ih =>
    rw [findNext.loop, forwardUntil]
    generalize s.eof = step
    obtain ⟨atEnd, s₁⟩ := step
    cases atEnd with
    | true => rfl
    | false =>
      simp only [Bool.false_eq_true, if_false]
      split_ifs
      · rfl
      · exact ih _

theorem Synced.moveBeforeFirst_atStart (schema : MultiPartSchema R) (sync : s.Synced)
    (nonempty : s.content.rows ≠ []) : (s.moveBeforeFirst schema).2.AtStart := by
  obtain ⟨row, hrow⟩ := Content.exists_row (length_pos_iff.2 nonempty)
  have hrow : s.indexTable.records[0]? = some row := hrow
  have same : (if s.currentTableNumber ≠ 0 then s.openDataTable schema 0 else s) =
      s.openDataTable schema (0 : Nat) := by
    split_ifs with other
    · rfl
    · exact (openDataTable_self (not_not.1 other)).symm
  have name : (s.openDataTable schema (0 : Nat)).dataName = row.tableName ∧
      (s.openDataTable schema (0 : Nat)).currentTableNumber = 0 ∧
      (s.openDataTable schema (0 : Nat)).indexTable = s.indexTable := by
    by_cases h : s.currentTableNumber = (0 : Nat)
    · rw [openDataTable_self h]
      exact ⟨sync.name 0 row h hrow, h, rfl⟩
    · rw [openDataTable_of_ne h hrow]
      exact ⟨rfl, rfl, rfl⟩
  rw [moveBeforeFirst, same]
  refine ⟨name.2.1, fun row' hrow' => ?_, ?_, ?_⟩
  · have hrow' : s.indexTable.records[0]? = some row' := name.2.2 ▸ hrow'
    rw [← Option.some.inj (hrow.symm.trans hrow')]
    exact name.1
  · simp only [RecordSet.moveBeforeFirst_snd]
  · simp only [RecordSet.moveBeforeFirst_snd]

theorem Synced.moves_findNext (schema : MultiPartSchema R) (sync : s.Synced)
    (checkCondition : R → Bool) : s.Moves (findNext schema checkCondition s).2 := by
  have next := sync.moves_moveNext schema
  rw [findNext]
  generalize s.moveNext schema = step at next ⊢
  obtain ⟨found, s₁⟩ := step
  cases found with
  | false => exact next
  | true =>
    simp only [Bool.not_true, Bool.false_eq_true, if_false]
    rw [findNext_loop_snd]
    exact next.trans (next.2.moves_forwardUntil schema _ _)

/-- A filtered record set finds the first record that passes the filters, or is at the end. -/
theorem Synced.filteredFind_places (schema : MultiPartSchema R) (sync : s.Synced)
    (filled : s.content.Filled) (checkCondition : R → Bool) :
    s.Moves (filteredFind schema checkCondition s).2 ∧
      ((∃ i r, (filteredFind schema checkCondition s).2.AtRecord i ∧
          s.content.stored[i]? = some r ∧ checkCondition r = true ∧
          ∀ a ∈ s.content.stored.take i, checkCondition a = false) ∨
        (filteredFind schema checkCondition s).2.eof.1 = true ∧
          ∀ a ∈ s.content.stored, checkCondition a = false) := by
  have before := sync.moves_moveBeforeFirst schema
  have keeps := before.trans (before.2.moves_findNext schema checkCondition)
  refine ⟨keeps, ?_⟩
  by_cases rows : s.content.rows = []
  · refine .inr ⟨eof_of_empty (keeps.1.content ▸ rows), ?_⟩
    simp [Content.stored, Content.files, rows]
  · have content := before.1.content
    have start := sync.moveBeforeFirst_atStart schema rows
    obtain ⟨moved, here⟩ := start.moveNext schema before.2 (content ▸ filled) (content ▸ rows)
    have next := before.2.moves_moveNext schema
    rw [filteredFind, findNext]
    generalize (s.moveBeforeFirst schema).2.moveNext schema = step at moved here next ⊢
    obtain ⟨found, s₁⟩ := step
    obtain rfl : found = true := moved
    have content₁ : s₁.content = s.content := next.1.content.trans content
    simp only [Bool.not_true, Bool.false_eq_true, if_false]
    rw [findNext_loop_snd]
    have length : s₁.stored.length = s₁.content.stored.length := rfl
    have places := AtRecord.forwardUntil schema checkCondition (s₁.stored.length + 1) next.2
      (content₁ ▸ filled) here (by show s₁.content.stored.length < _; omega)
    rw [content₁] at places
    refine places.imp ?_ ?_
    · rintro ⟨j, r, -, stands, read, passes, none⟩
      have lt := (List.getElem?_eq_some_iff.1 read).1
      refine ⟨j, r, stands, read, passes, fun a ha => ?_⟩
      obtain ⟨k, hk, rfl⟩ := mem_take_iff_getElem.1 ha
      exact none k _ (Nat.zero_le k) (by omega) (List.getElem?_eq_getElem _)
    · rintro ⟨exhausted, none⟩
      refine ⟨exhausted, fun a ha => ?_⟩
      obtain ⟨k, hk⟩ := mem_iff_getElem?.1 ha
      exact none k a (Nat.zero_le k) hk

end search

end CimArm.MultiPart
