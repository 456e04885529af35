import CimArm.Db.Search

/-!
# Loops over whole tables

Two loops that the managers write out by hand.  `findLast` goes from the last record
backwards until a test decides.  `walk` reads the records of a header table and, for
each, the lines of a detail table with its id; it looks for them only where the
detail cursor is not on them already.  Over sorted tables both are folds over what
is stored (`Synced.findLast_eq`, `AtRecord.walk`).
-/

namespace CimArm.MultiPart

open List

variable {R S σ : Type}

/-! ## Backwards -/

/-- `while (![rs bof]) { ...; [rs movePrev]; }`: the test returns the record, gives the
search up, or has the loop go on. -/
def backUntil (schema : MultiPartSchema R) (verdict : R → Option Bool) :
    Nat → MultiPart R → Option R × MultiPart R
  | 0, self => (none, self)
  | fuel + 1, self =>
    if self.bof then (none, self)
    else match verdict self.data.buffer with
      | some true => (some self.data.buffer, self)
      | some false => (none, self)
      | none => backUntil schema verdict fuel (self.movePrev schema).2

def findLast (schema : MultiPartSchema R) (verdict : R → Option Bool) (self : MultiPart R) :
    Option R × MultiPart R :=
  let (found, self) := self.moveLast schema
  if !found then (none, self) else self.backUntil schema verdict (self.stored.length + 1)

/-- The first record of a list that the test returns before it gives up. -/
def firstDecided (verdict : R → Option Bool) : List R → Option R
  | [] => none
  | r :: rs =>
    match verdict r with
    | some true => some r
    | some false => none
    | none => firstDecided verdict rs

/-- The test that returns the first record with a property. -/
def accept (p : R → Bool) (r : R) : Option Bool := if p r then some true else none

theorem firstDecided_accept (p : R → Bool) (rs : List R) :
    firstDecided (accept p) rs = rs.find? p := by
  induction rs with
  | nil => rfl
  | cons r rs ih =>
    cases h : p r with
    | true => simp [firstDecided, accept, h]
    | false => simp [firstDecided, accept, h, ih]

section backwards

variable {schema : MultiPartSchema R} {s : MultiPart R}

theorem AtRecord.bof {i : Nat} (here : s.AtRecord i) : s.bof = false := by
  obtain ⟨k, j, row, on, -⟩ := here
  simp [MultiPart.bof, RecordSet.bof, on.pos]

theorem AtStart.bof (start : s.AtStart) : s.bof = true := by
  simp [MultiPart.bof, RecordSet.bof, start.pos, start.number]

theorem AtRecord.backUntil (schema : MultiPartSchema R) (verdict : R → Option Bool) (fuel : Nat)
    (sync : s.Synced) (filled : s.content.Filled) {i : Nat} (here : s.AtRecord i)
    (enough : i + 1 < fuel) :
    (s.backUntil schema verdict fuel).1 =
        firstDecided verdict (s.content.stored.take (i + 1)).reverse ∧
      s.Moves (s.backUntil schema verdict fuel).2 := by
  induction fuel generalizing s i with
  | zero => omega
  | succ fuel ih =>
    have back := sync.moves_movePrev schema
    obtain ⟨before, start⟩ := here.movePrev schema sync filled
    have read : s.content.stored[i]? = some s.data.buffer := here.buffer
    have last : (s.content.stored.take (i + 1)).reverse =
        s.data.buffer :: (s.content.stored.take i).reverse := by
      rw [take_add_one, read, Option.toList_some, reverse_append]
      rfl
    rw [MultiPart.backUntil, here.bof, last, firstDecided]
    simp only [Bool.false_eq_true, if_false]
    cases decided : verdict s.data.buffer with
    | some stop => cases stop <;> exact ⟨rfl, sync.moves⟩
    | none =>
      simp only
      rcases Nat.eq_zero_or_pos i with rfl | positive
      · cases fuel with
        | zero => omega
        | succ fuel =>
          rw [MultiPart.backUntil, (start rfl).2.bof]
          exact ⟨rfl, back⟩
      · have rest := ih back.2 (back.1.content ▸ filled) (before positive).2 (by omega)
        rw [back.1.content, Nat.sub_add_cancel positive] at rest
        exact ⟨rest.1, back.trans rest.2⟩

theorem Synced.findLast_eq (schema : MultiPartSchema R) (sync : s.Synced)
    (filled : s.content.Filled) (verdict : R → Option Bool) :
    (s.findLast schema verdict).1 = firstDecided verdict s.content.stored.reverse ∧
      s.Moves (s.findLast schema verdict).2 := by
  have keeps := sync.moves_moveLast schema
  obtain ⟨some, none⟩ := sync.moveLast_atRecord schema filled
  rw [findLast]
  by_cases rows : s.content.rows = []
  · have empty : s.content.stored = [] := by simp [Content.stored, Content.files, rows]
    have failed := none rows
    generalize s.moveLast schema = step at keeps failed ⊢
    obtain ⟨found, s₁⟩ := step
    obtain rfl : found = false := failed
    rw [empty]
    exact ⟨rfl, keeps⟩
  · obtain ⟨hit, here⟩ := some rows
    have size : 0 < s.content.stored.length := by
      obtain ⟨row, hrow⟩ := Content.exists_row (length_pos_iff.2 rows)
      have positive := Content.length_pos filled hrow
      have first := Content.start_succ hrow
      have bound := s.content.start_le (0 + 1)
      rw [Content.start_zero] at first
      omega
    generalize s.moveLast schema = step at keeps hit here ⊢
    obtain ⟨found, s₁⟩ := step
    obtain rfl : found = true := hit
    have content : s₁.content = s.content := keeps.1.content
    have length : s₁.stored.length = s.content.stored.length :=
      congrArg (·.stored.length) content
    have run := AtRecord.backUntil schema verdict (s₁.stored.length + 1) keeps.2
      (content ▸ filled) here (by omega)
    rw [content, Nat.sub_add_cancel size, take_length] at run
    exact ⟨run.1, keeps.trans run.2⟩

end backwards

/-! ## Headers and their lines -/

/-- Read the lines of one id: from the cursor on where it is on the id, else from the
first line with it. -/
def readGroup (schema : MultiPartSchema S) (number : Nat) (body : σ → S → σ) (state : σ)
    (self : MultiPart S) : σ × MultiPart S :=
  let (atEnd, self) := self.eof
  let (found, self) :=
    if !atEnd && decide (schema.idField.get self.data.buffer = number) then (true, self)
    else self.findFirstById schema schema.idField number
  if !found then (state, self)
  else self.readWhile schema (fun r => schema.idField.get r = number) body
    (self.stored.length + 1) state

/-- What a loop over headers and lines does: where it breaks off, which headers have
their lines read, and what a header and a line do to its state. -/
structure Walk (R S σ : Type) : Type where
  stop : R → Bool
  wanted : R → Bool
  onHeader : σ → R → σ
  onLine : R → σ → S → σ

def walk (header : MultiPartSchema R) (detail : MultiPartSchema S) (w : Walk R S σ) :
    Nat → σ → MultiPart R → MultiPart S → σ
  | 0, state, _, _ => state
  | fuel + 1, state, headers, details =>
    let (atEnd, headers) := headers.eof
    let r := headers.data.buffer
    if atEnd || w.stop r then state
    else
      let state := w.onHeader state r
      let (state, details) :=
        if w.wanted r then
          details.readGroup detail (header.idField.get r) (w.onLine r) state
        else (state, details)
      walk header detail w fuel state (headers.moveNext header).2 details

/-- What the loop does for one header, given all lines. -/
def Walk.visit (w : Walk R S σ) (id : R → Nat) (lineId : S → Nat) (lines : List S) (state : σ)
    (r : R) : σ :=
  if w.wanted r then
    (lines.filter fun line => lineId line = id r).foldl (w.onLine r) (w.onHeader state r)
  else w.onHeader state r

section forwards

variable {schema : MultiPartSchema S} {s : MultiPart S}

/-- The cursor is on the first line of its id, or past all lines. -/
def AtGroup (schema : MultiPartSchema S) (s : MultiPart S) : Prop :=
  s.eof.1 = true ∨ ∃ j, s.AtRecord j ∧ ∀ i a b, i < j → s.content.stored[i]? = some a →
    s.content.stored[j]? = some b → schema.idField.get a < schema.idField.get b

theorem AtRecord.readWhile_end (schema : MultiPartSchema S) (more : S → Bool)
    (body : σ → S → σ) (fuel : Nat) (state : σ) (sync : s.Synced) (filled : s.content.Filled)
    {i : Nat} (here : s.AtRecord i) (enough : s.content.stored.length < i + fuel) :
    (s.readWhile schema more body fuel state).2.eof.1 = true ∨
      ∃ k, (s.readWhile schema more body fuel state).2.AtRecord k ∧ i ≤ k ∧
        (∀ j a, i ≤ j → j < k → s.content.stored[j]? = some a → more a = true) ∧
        ∀ a, s.content.stored[k]? = some a → more a = false := by
  induction fuel generalizing s i state with
  | zero => exact absurd here.lt (by omega)
  | succ fuel ih =>
    have read : s.content.stored[i]? = some s.data.buffer := here.buffer
    obtain ⟨next, step, last⟩ := here.ahead schema sync filled
    have content := next.1.content
    rw [MultiPart.readWhile, here.eof_eq]
    simp only [getIndexCount_buffer, Bool.false_or]
    cases stop : more s.data.buffer with
    | false =>
      simp only [Bool.not_false, if_true]
      refine .inr ⟨i, here.eof_at, Nat.le_refl i, fun j _ low high => absurd low (by omega), ?_⟩
      intro a ha
      obtain rfl := Option.some.inj (read.symm.trans ha)
      exact stop
    | true =>
      simp only [Bool.not_true, Bool.false_eq_true, if_false]
      rcases Nat.lt_or_ge (i + 1) s.content.stored.length with more' | final
      · rcases ih (body state s.data.buffer) next.2 (content ▸ filled) (step more')
          (by rw [content]; omega) with exhausted | ⟨k, at_, le, passed, ended⟩
        · exact .inl exhausted
        · rw [content] at passed ended
          refine .inr ⟨k, at_, by omega, fun j a low high ha => ?_, ended⟩
          rcases Nat.eq_or_lt_of_le low with rfl | low
          · obtain rfl := Option.some.inj (read.symm.trans ha)
            exact stop
          · exact passed j a low high ha
      · have exhausted := last final
        refine .inl ?_
        cases fuel with
        | zero => exact exhausted
        | succ fuel =>
          rw [MultiPart.readWhile, show (s.getIndexCount.2.moveNext schema).2.eof = (true, _) from
            Prod.ext exhausted rfl]
          exact exhausted

/-- On the first line of its id the loop reads the lines with that id and stops on the
first line of another one. -/
theorem AtRecord.readGroup_here (sync : s.Synced) (sorted : s.content.Sorted schema)
    (body : σ → S → σ) (state : σ) {number j : Nat} (here : s.AtRecord j)
    (same : ∀ a, s.content.stored[j]? = some a → schema.idField.get a = number)
    (below : ∀ i a, i < j → s.content.stored[i]? = some a → schema.idField.get a < number) :
    let step := s.readWhile schema (fun r => schema.idField.get r = number) body
      (s.content.stored.length + 1) state
    step.1 = (s.content.stored.filter fun r => schema.idField.get r = number).foldl body state ∧
      AtGroup schema step.2 := by
  intro step
  have keeps := sync.moves_readWhile schema (fun r => decide (schema.idField.get r = number)) body
    (s.content.stored.length + 1) state
  refine ⟨?_, ?_⟩
  · rw [← SortedParts.takeWhile_drop_eq_filter sorted.ids below same]
    exact here.readWhile schema _ body _ state sync sorted.filled (by omega)
  · rcases here.readWhile_end schema (fun r => decide (schema.idField.get r = number)) body
      (s.content.stored.length + 1) state sync sorted.filled (by omega)
      with exhausted | ⟨k, at_, le, passed, ended⟩
    · exact .inl exhausted
    · refine .inr ⟨k, at_, fun i a b lt ha hb => ?_⟩
      rw [show step.2.content = s.content from keeps.1.content] at ha hb
      obtain ⟨hi, rfl⟩ := List.getElem?_eq_some_iff.1 ha
      obtain ⟨hk, rfl⟩ := List.getElem?_eq_some_iff.1 hb
      have order := pairwise_iff_getElem.1 sorted.ids i k hi hk lt
      have other := of_decide_eq_false (ended _ (List.getElem?_eq_getElem hk))
      have hj : j < s.content.stored.length := (List.getElem?_eq_some_iff.1 here.buffer).1
      have at_j := same _ (List.getElem?_eq_getElem hj)
      have reach : schema.idField.get s.content.stored[j] ≤
          schema.idField.get s.content.stored[k] := by
        rcases Nat.eq_or_lt_of_le le with rfl | lt'
        · exact Nat.le_refl _
        · exact pairwise_iff_getElem.1 sorted.ids j k hj hk lt'
      have low : schema.idField.get s.content.stored[i] ≤ number := by
        rcases Nat.lt_or_ge i j with before | after
        · exact Nat.le_of_lt (below i _ before (List.getElem?_eq_getElem hi))
        · exact Nat.le_of_eq (of_decide_eq_true (passed i _ after lt (List.getElem?_eq_getElem hi)))
      omega

theorem AtGroup.readGroup (group : AtGroup schema s) (sync : s.Synced)
    (sorted : s.content.Sorted schema) (len : schema.idField.len = 4) (body : σ → S → σ)
    (state : σ) {number : Nat}
    (some_line : ∃ r ∈ s.content.stored, schema.idField.get r = number) :
    let step := s.readGroup schema number body state
    step.1 = (s.content.stored.filter fun r => schema.idField.get r = number).foldl body state ∧
      s.Moves step.2 ∧ AtGroup schema step.2 := by
  intro step
  have ended : s.Moves s.eof.2 := sync.moves_getIndexCount
  have content : s.eof.2.content = s.content := ended.1.content
  have sorted' : s.eof.2.content.Sorted schema := content ▸ sorted
  by_cases here : (!s.eof.1 && decide (schema.idField.get s.eof.2.data.buffer = number)) = true
  · -- the cursor is on the lines already
    have direct : step = s.eof.2.readWhile schema
        (fun r => schema.idField.get r = number) body (s.content.stored.length + 1) state := by
      show s.readGroup schema number body state = _
      rw [MultiPart.readGroup]
      simp only [here, if_true, Bool.not_true, Bool.false_eq_true, if_false]
      rfl
    rw [Bool.and_eq_true, decide_eq_true_eq] at here
    obtain ⟨inside, same⟩ := here
    rcases group with exhausted | ⟨j, at_, below⟩
    · simp [exhausted] at inside
    · have at' : s.eof.2.AtRecord j := by
        obtain ⟨k, j, row, on, pos⟩ := at_
        exact ⟨k, j, row, ⟨on.rowAt, on.number, on.name, on.record, on.pos, on.flag⟩, pos⟩
      have read : s.content.stored[j]? = some s.eof.2.data.buffer := at_.buffer
      have result := at'.readGroup_here ended.2 sorted' body state
        (fun a ha => by
          rw [content] at ha
          obtain rfl := Option.some.inj (read.symm.trans ha)
          exact same)
        fun i a lt ha => by
          rw [content] at ha
          exact same ▸ below i a _ lt ha read
      rw [content] at result
      rw [direct]
      exact ⟨result.1, ended.trans (ended.2.moves_readWhile schema _ _ _ _), result.2⟩
  · obtain ⟨found, onHit⟩ := ended.2.findFirstById_found sorted' len number
    have keeps := ended.2.moves_findFirstById schema schema.idField number
    have hit : (s.eof.2.findFirstById schema schema.idField number).1 = true :=
      found.2 (content ▸ some_line)
    obtain ⟨m, at_, same, below⟩ := onHit hit
    have content' := keeps.1.content.trans content
    have searched : step = (s.eof.2.findFirstById schema schema.idField number).2.readWhile schema
        (fun r => schema.idField.get r = number) body (s.content.stored.length + 1) state := by
      have length : (s.eof.2.findFirstById schema schema.idField number).2.stored.length =
          s.content.stored.length := congrArg (·.stored.length) content'
      show s.readGroup schema number body state = _
      rw [MultiPart.readGroup]
      simp only [here, hit, length, Bool.not_true, Bool.false_eq_true, if_false]
    rw [content] at same below
    have result := at_.readGroup_here keeps.2 (content' ▸ sorted) body state
      (fun a ha => same a (by rwa [content'] at ha))
      fun i a lt ha => below i a lt (by rwa [content'] at ha)
    rw [content'] at result
    rw [searched]
    exact ⟨result.1, (ended.trans keeps).trans (keeps.2.moves_readWhile schema _ _ _ _), result.2⟩

end forwards

section walk

variable {header : MultiPartSchema R} {detail : MultiPartSchema S} {headers : MultiPart R}
  {details : MultiPart S}

theorem eof_of_empty {s : MultiPart R} (rows : s.content.rows = []) : s.eof.1 = true := by
  have count : s.indexTable.records.length = 0 := congrArg List.length rows
  simp [MultiPart.eof, MultiPart.getIndexCount, count]

theorem walk_eof (w : Walk R S σ) (fuel : Nat) (state : σ) (exhausted : headers.eof.1 = true) :
    walk header detail w fuel state headers details = state := by
  cases fuel with
  | zero => rfl
  | succ fuel => simp [walk, exhausted]

/-- From a header on, the loop visits the stored headers until it breaks off; every
header has lines. -/
theorem AtRecord.walk (w : Walk R S σ) (fuel : Nat) (state : σ) (sync : headers.Synced)
    (filled : headers.content.Filled) {i : Nat} (here : headers.AtRecord i)
    (lines : details.Synced) (sorted : details.content.Sorted detail)
    (len : detail.idField.len = 4) (group : AtGroup detail details)
    (some_line : ∀ r ∈ headers.content.stored, ∃ line ∈ details.content.stored,
      detail.idField.get line = header.idField.get r)
    (enough : headers.content.stored.length < i + fuel) :
    MultiPart.walk header detail w fuel state headers details =
      ((headers.content.stored.drop i).takeWhile fun r => !w.stop r).foldl
        (w.visit header.idField.get detail.idField.get details.content.stored) state := by
  induction fuel generalizing headers details i state with
  | zero => exact absurd here.lt (by omega)
  | succ fuel ih =>
    have read : headers.content.stored[i]? = some headers.data.buffer := here.buffer
    obtain ⟨next, step, last⟩ := here.ahead header sync filled
    rw [MultiPart.walk, here.eof_eq, here.drop_eq]
    simp only [Bool.false_or]
    rw [getIndexCount_buffer]
    cases stop : w.stop headers.data.buffer with
    | true => simp [stop]
    | false =>
      rw [takeWhile_cons_of_pos (by simp [stop]), foldl_cons]
      simp only [Bool.false_eq_true, if_false]
      -- the lines of this header, if they are read, leave the cursor on a group again
      obtain ⟨details₁, visited, keeps, group₁⟩ : ∃ details₁,
          (if w.wanted headers.data.buffer then
            details.readGroup detail (header.idField.get headers.data.buffer)
              (w.onLine headers.data.buffer) (w.onHeader state headers.data.buffer)
          else (w.onHeader state headers.data.buffer, details)) =
            (w.visit header.idField.get detail.idField.get details.content.stored state
              headers.data.buffer, details₁) ∧ details.Moves details₁ ∧
            AtGroup detail details₁ := by
        have hr : headers.data.buffer ∈ headers.content.stored := mem_of_getElem? read
        rw [Walk.visit]
        split_ifs with wanted
        · obtain ⟨result, keeps, group₁⟩ := group.readGroup lines sorted len
            (w.onLine headers.data.buffer) (w.onHeader state headers.data.buffer)
            (some_line _ hr)
          exact ⟨_, Prod.ext result rfl, keeps, group₁⟩
        · exact ⟨details, rfl, lines.moves, group⟩
      rw [visited]
      have nextContent := next.1.content
      have lineContent : details₁.content = details.content := keeps.1.content
      rcases Nat.lt_or_ge (i + 1) headers.content.stored.length with more | final
      · have := ih (w.visit header.idField.get detail.idField.get details.content.stored state
          headers.data.buffer) next.2 (nextContent ▸ filled) (step more) keeps.2
          (lineContent ▸ sorted) group₁ (by rw [nextContent, lineContent]; exact some_line)
          (by rw [nextContent]; omega)
        rw [nextContent, lineContent] at this
        exact this
      · rw [drop_eq_nil_of_le final]
        exact walk_eof w fuel _ (last final)

end walk

end CimArm.MultiPart
