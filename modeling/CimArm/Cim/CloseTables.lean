import CimArm.Cim.ZCloseManager

/-!
# What the tables hold of the deposits and closes of a run

A `CloseHistory` is a machine with every deposit and every close it has stored since
its database was empty.  `Persisted` says that the tables hold the newest of them;
storing keeps it.  On such a machine the loops over the deposits are folds over the
deposits that are still stored (`Persisted.walkDeposits`), and a lookup of a close is a
search of the list of the stored closes (`Persisted.findLast`).
-/

namespace CimArm

open MultiPart List

/-- A machine and all that it has stored. -/
structure CloseHistory : Type where
  machine : CloseMachine
  deposits : List Deposit
  closes : List ZClose

theorem eq_map_drop_of_suffix {α β : Type} {f : α → β} {written : List α} {stored : List β}
    (suffix : stored <:+ written.map f) :
    stored = (written.drop (written.length - stored.length)).map f := by
  obtain ⟨dropped, split⟩ := suffix
  have length := congrArg List.length split
  rw [length_append, length_map] at length
  have count : written.length - stored.length = dropped.length := by omega
  rw [count, map_drop, ← split, drop_left]

namespace CloseHistory

variable (site : CloseSite) (h : CloseHistory)

/-- The rows of the closes that are still stored. -/
def rows : List ZCloseRecord := h.machine.zCloseDAO.content.stored

/-- The deposits that are still stored. -/
def retained : List Deposit :=
  h.deposits.drop (h.deposits.length - h.machine.depositDAO.deposits.content.stored.length)

/-- The closes that are still stored. -/
def retainedCloses : List ZClose := h.closes.drop (h.closes.length - h.rows.length)

/-- The tables hold the newest deposits, whose numbers grow and which all have details,
and the newest closes. -/
structure Persisted : Prop where
  sound : h.machine.depositDAO.Sound site.tables h.deposits
  headers : h.machine.depositDAO.deposits.content.stored <:+
    h.deposits.map DepositRecord.ofDeposit
  newest : h.deposits ≠ [] → h.machine.depositDAO.deposits.content.stored ≠ []
  closes : h.machine.zCloseDAO.Retains site.closes.schema (h.closes.map .ofClose)
  growing : h.deposits.Pairwise fun a b => a.number < b.number
  bounded : ∀ d ∈ h.deposits, 0 < d.number ∧ d.number + 1 < ulongSize
  filled : ∀ d ∈ h.deposits, d.depositDetails ≠ []
  cashs : ∀ d ∈ h.deposits, ∃ cash ∈ site.cimCashs, d.cimCash = some cash

/-- What a loop does for one stored deposit. -/
def visitDeposit {σ : Type} (w : Walk DepositRecord DepositDetailRecord σ) (state : σ)
    (d : Deposit) : σ :=
  if w.wanted (.ofDeposit d) then
    d.detailRecords.foldl (w.onLine (.ofDeposit d)) (w.onHeader state (.ofDeposit d))
  else w.onHeader state (.ofDeposit d)

namespace Persisted

variable {site} {h}

variable {d : Deposit} {m : CloseMachine}

theorem number (p : Persisted site h) (hd : d ∈ h.deposits) :
    (DepositRecord.ofDeposit d).number = d.number :=
  toULong_of_lt (Nat.lt_of_succ_lt (p.bounded d hd).2)

theorem stored_headers (p : Persisted site h) :
    h.machine.depositDAO.deposits.content.stored = h.retained.map .ofDeposit :=
  eq_map_drop_of_suffix p.headers

theorem stored_closes (p : Persisted site h) :
    h.rows = h.retainedCloses.map .ofClose :=
  eq_map_drop_of_suffix p.closes.suffix

theorem retained_suffix (h : CloseHistory) : h.retained <:+ h.deposits := drop_suffix _ _

theorem mem_of_retained (hd : d ∈ h.retained) : d ∈ h.deposits :=
  (retained_suffix h).subset hd

theorem getLast?_retained (p : Persisted site h) : h.retained.getLast? = h.deposits.getLast? := by
  by_cases none : h.deposits = []
  · simp [retained, none]
  · have some := p.newest none
    have length : 0 < h.machine.depositDAO.deposits.content.stored.length :=
      length_pos_iff.2 some
    have total := length_pos_iff.2 none
    rw [retained, List.getLast?_drop, if_neg (by omega)]

theorem fresh_deposits (p : Persisted site h) :
    (h.machine.getNewDepositRecordSet site).Synced ∧
      (h.machine.getNewDepositRecordSet site).content = h.machine.depositDAO.deposits.content := by
  obtain ⟨level, aligned⟩ := p.sound.aligned
  exact synced_open site.tables.headers _ _ aligned.wellFormed.count
    fun rows => (p.sound.deposits.empty rows).2.2.2

theorem fresh_details (p : Persisted site h) :
    (h.machine.getNewDepositDetailRecordSet site).Synced ∧
      (h.machine.getNewDepositDetailRecordSet site).content =
        h.machine.depositDAO.details.content := by
  obtain ⟨level, aligned⟩ := p.sound.aligned
  exact synced_open site.tables.details _ _ aligned.shaped.count
    fun rows => (p.sound.details.empty rows).2.2.2

theorem sorted_deposits (p : Persisted site h) :
    h.machine.depositDAO.deposits.content.Sorted site.tables.headers ∧
      h.machine.depositDAO.deposits.content.stored.Pairwise fun a b => a.number < b.number := by
  obtain ⟨level, aligned⟩ := p.sound.aligned
  exact ⟨aligned.wellFormed.sorted, aligned.wellFormed.ids⟩

theorem lines (p : Persisted site h) (hd : d ∈ h.retained) :
    (h.machine.depositDAO.details.content.stored.filter fun line =>
      line.number = (DepositRecord.ofDeposit d).number) = d.detailRecords := by
  obtain ⟨level, aligned⟩ := p.sound.aligned
  have written := mem_of_retained hd
  have stored : .ofDeposit d ∈ h.machine.depositDAO.deposits.content.stored := by
    rw [p.stored_headers]
    exact mem_map_of_mem hd
  have wide (d' : Deposit) (hd' : d' ∈ h.deposits) : d'.number < ulongSize :=
    Nat.lt_of_succ_lt (p.bounded d' hd').2
  refine (aligned.filter_stored stored).trans ?_
  show (h.deposits.flatMap (·.detailRecords)).filter (fun line =>
    line.number = (DepositRecord.ofDeposit d).number) = _
  rw [p.number written]
  exact DepositDAO.filter_detailRecords p.growing wide written

/-- A loop that starts on the record of a retained deposit goes over the retained deposits
from there on. -/
theorem walkDeposits {σ : Type} (p : Persisted site h)
    (w : Walk DepositRecord DepositDetailRecord σ) (state : σ)
    {depositRS : MultiPart DepositRecord}
    (keeps : (h.machine.getNewDepositRecordSet site).Keeps depositRS) {i : Nat}
    (here : depositRS.AtRecord i) :
    h.machine.walkDeposits site w state depositRS =
      ((h.retained.drop i).takeWhile fun d => !w.stop (.ofDeposit d)).foldl (visitDeposit w)
        state := by
  obtain ⟨level, aligned⟩ := p.sound.aligned
  have content : depositRS.content = h.machine.depositDAO.deposits.content :=
    keeps.1.content.trans p.fresh_deposits.2
  obtain ⟨sync, fresh⟩ := p.fresh_details
  have sorted : h.machine.depositDAO.details.content.Sorted site.tables.details :=
    aligned.shaped.sorted aligned.ids
  have first := sync.moves_moveFirst site.tables.details
  have lineContent := first.1.content.trans fresh
  have some_line (r : DepositRecord) (hr : r ∈ depositRS.content.stored) :
      ∃ line ∈ h.machine.depositDAO.details.content.stored,
        site.tables.details.idField.get line = site.tables.headers.idField.get r := by
    rw [content, p.stored_headers] at hr
    obtain ⟨d, hd, rfl⟩ := mem_map.1 hr
    have own := p.lines hd
    obtain ⟨line, hline⟩ := exists_mem_of_ne_nil _ (p.filled d (mem_of_retained hd))
    have mem : DepositDetailRecord.ofDetail d.number line ∈ d.detailRecords :=
      mem_map_of_mem hline
    rw [← own] at mem
    obtain ⟨stored, same⟩ := mem_filter.1 mem
    exact ⟨_, stored, of_decide_eq_true same⟩
  have at_header : depositRS.data.buffer ∈ depositRS.content.stored :=
    mem_of_getElem? here.buffer
  -- there is a line, so that the details start on the first one
  have group : AtGroup site.tables.details
      ((h.machine.getNewDepositDetailRecordSet site).moveFirst site.tables.details).2 := by
    obtain ⟨line, stored, -⟩ := some_line _ at_header
    obtain ⟨some, -⟩ := sync.moveFirst_atRecord site.tables.details (fresh ▸ sorted.filled)
    refine .inr ⟨0, (some ?_).2, fun i a b lt => absurd lt (by omega)⟩
    rintro empty
    rw [fresh] at empty
    simp [Content.stored, Content.files, empty] at stored
  have run := here.walk w (depositRS.stored.length + 1) state keeps.2
    (content ▸ p.sorted_deposits.1.filled) first.2 (lineContent ▸ sorted) rfl group
    (by rw [lineContent]; exact some_line) (by
      show depositRS.content.stored.length < i + (depositRS.content.stored.length + 1)
      omega)
  rw [CloseMachine.walkDeposits, run, content, p.stored_headers, lineContent, ← map_drop,
    takeWhile_map, foldl_map]
  refine foldl_ext _ _ _ fun state d hd => ?_
  have retained : d ∈ h.retained :=
    (drop_sublist i h.retained).subset ((takeWhile_sublist _).subset hd)
  rw [Walk.visit, visitDeposit, ← p.lines retained]
  rfl

/-! ## Storing -/

theorem store_deposits (tables : DepositTables) (s : DepositDAO) (d : Deposit) :
    (s.store tables d).deposits = (s.storeHeader tables d).deposits := by
  rw [DepositDAO.store, DepositDAO.storeDetails]
  generalize s.storeHeader tables d = s₁
  generalize d.depositDetails = lines
  induction lines generalizing s₁ with
  | nil => rfl
  | cons line lines ih => exact ih (s₁.saveDepositDetail tables d line)

theorem storeDeposit (p : Persisted site h) (after : ∀ d' ∈ h.deposits, d'.number < d.number)
    (positive : 0 < d.number) (room : d.number + 1 < ulongSize) (details : d.depositDetails ≠ [])
    (cash : ∃ cash ∈ site.cimCashs, d.cimCash = some cash)
    (stored : m.depositDAO = h.machine.depositDAO.store site.tables d)
    (same : m.zCloseDAO = h.machine.zCloseDAO) :
    Persisted site ⟨m, h.deposits ++ [d], h.closes⟩ := by
  obtain ⟨level, aligned⟩ := p.sound.aligned
  have content : m.depositDAO.deposits.content =
      h.machine.depositDAO.deposits.content.store site.tables.headers false (.ofDeposit d) := by
    rw [stored, store_deposits]
    exact (DepositDAO.storeHeader_eq d p.sound.deposits p.sound.noAppend p.sound.noCut
      aligned).2.1
  have each {P : Deposit → Prop} (old : ∀ d' ∈ h.deposits, P d') (new : P d) :
      ∀ d' ∈ h.deposits ++ [d], P d' := fun d' hd' => by
    rcases mem_append.1 hd' with hd' | hd'
    · exact old d' hd'
    · exact mem_singleton.1 hd' ▸ new
  refine ⟨?_, ?_, fun _ => ?_, ?_, ?_, each p.bounded ⟨positive, room⟩, each p.filled details,
    each p.cashs cash⟩
  · rw [stored]
    exact p.sound.store after (Nat.lt_of_succ_lt room)
  · rw [content, map_append]
    exact Content.store_suffix site.tables.two_le rfl aligned.wellFormed.toShaped false _ p.headers
  · rw [content, Content.store_stored site.tables.two_le aligned.wellFormed.toShaped]
    simp
  · rw [same]
    exact p.closes
  · rw [pairwise_append]
    exact ⟨p.growing, pairwise_singleton _ _,
      fun d' hd' x hx => mem_singleton.1 hx ▸ after d' hd'⟩

theorem storeClose (p : Persisted site h) {z : ZClose} (same : m.depositDAO = h.machine.depositDAO)
    (stored : m.zCloseDAO = ZCloseDAO.store site.closes h.machine.zCloseDAO z) :
    Persisted site ⟨m, h.deposits, h.closes ++ [z]⟩ := by
  refine ⟨same ▸ p.sound, same ▸ p.headers, same ▸ p.newest, ?_, p.growing, p.bounded, p.filled,
    p.cashs⟩
  rw [stored, map_append]
  exact p.closes.store site.closes.two_le rfl (.ofClose z)

theorem of_keeps (p : Persisted site h) (deposits : h.machine.depositDAO.Keeps m.depositDAO)
    (closes : h.machine.zCloseDAO.Keeps m.zCloseDAO) :
    Persisted site ⟨m, h.deposits, h.closes⟩ := by
  have content := deposits.1.1.content
  refine ⟨p.sound.of_keeps deposits, ?_, ?_, p.closes.of_keeps closes, p.growing, p.bounded,
    p.filled, p.cashs⟩
  · rw [content]
    exact p.headers
  · rw [content]
    exact p.newest

theorem reopen (p : Persisted site h)
    (deposits : m.depositDAO = h.machine.depositDAO.reopen site.tables)
    (closes : m.zCloseDAO = h.machine.zCloseDAO.reopen site.closes.schema) :
    Persisted site ⟨m, h.deposits, h.closes⟩ := by
  obtain ⟨level, aligned⟩ := p.sound.aligned
  have content : m.depositDAO.deposits.content.stored =
      h.machine.depositDAO.deposits.content.stored := by
    rw [deposits]
    exact (congrArg Content.stored (reopen_content p.sound.deposits
      aligned.wellFormed.toShaped).2).trans (Content.reload_stored _ _)
  refine ⟨deposits ▸ p.sound.reopen, ?_, ?_, closes ▸ p.closes.reopen, p.growing, p.bounded,
    p.filled, p.cashs⟩
  · rw [content]
    exact p.headers
  · rw [content]
    exact p.newest

theorem created (site : CloseSite) : Persisted site ⟨.created site, [], []⟩ where
  sound := DepositDAO.sound_created site.tables
  headers := by
    show (MultiPart.created site.tables.headers).content.stored <:+ []
    rw [(created_content site.tables.headers).2]
    exact suffix_rfl
  newest none := absurd rfl none
  closes := Retains.created site.closes.schema
  growing := .nil
  bounded := by simp
  filled := by simp
  cashs := by simp

/-! ## What is retained after a step -/

theorem retained_keeps (deposits : h.machine.depositDAO.Keeps m.depositDAO) (closes : List ZClose) :
    retained ⟨m, h.deposits, closes⟩ = h.retained := by
  rw [retained, retained, deposits.1.1.content]

theorem retained_reopen (p : Persisted site h)
    (deposits : m.depositDAO = h.machine.depositDAO.reopen site.tables) (closes : List ZClose) :
    retained ⟨m, h.deposits, closes⟩ = h.retained := by
  obtain ⟨level, aligned⟩ := p.sound.aligned
  have content : m.depositDAO.deposits.content.stored =
      h.machine.depositDAO.deposits.content.stored := by
    rw [deposits]
    exact (congrArg Content.stored (reopen_content p.sound.deposits
      aligned.wellFormed.toShaped).2).trans (Content.reload_stored _ _)
  rw [retained, retained, content]

end Persisted

end CloseHistory

end CimArm
