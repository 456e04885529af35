import CimArm.Cim.CloseReplay
import Mathlib.Data.List.TakeWhile

/-!
# The boot

What the managers know after a restart is a function of the deposits and the rows of
closes that are still stored (`Persisted.boot`): the open Z close goes on after the last
stored Z close with deposits, the open close of a cash after the last stored one of the
cash, and each has replayed the stored deposits.
-/

namespace CimArm

open MultiPart CloseMachine ZCloseDAO List

/-- The last row with a property. -/
def lastRow (rows : List ZCloseRecord) (p : ZCloseRecord → Bool) : Option ZCloseRecord :=
  rows.reverse.find? p

theorem lastRow_mem {rows : List ZCloseRecord} {p : ZCloseRecord → Bool} {r : ZCloseRecord}
    (last : lastRow rows p = some r) : r ∈ rows ∧ p r = true :=
  ⟨mem_reverse.1 (List.mem_of_find?_eq_some last), List.find?_some last⟩

/-- Where a cash goes on after the row of its last close. -/
def resume (r : ZCloseRecord) : Nat :=
  if r.toDepositNumber ≠ 0 then toULong (r.toDepositNumber + 1) else r.fromDepositNumber

/-- The number each cash goes on with; a cash without a row takes that of the cash before. -/
def firstNumbers (rows : List ZCloseRecord) : List CimCash → Nat → List (CimCash × Nat)
  | [], _ => []
  | cimCash :: cimCashs, number =>
    let number := ((lastRow rows (isCloseOfCash cimCash.cimCashId)).map resume).getD number
    (cimCash, number) :: firstNumbers rows cimCashs number

/-- A close of a cash that goes on with a number, opened at some time. -/
def opened (cimCash : CimCash) (number openTime : Nat) : ZClose :=
  { ZClose.new with
    openTime := openTime, fromDepositNumber := number, cimCash := some cimCash
    closeType := .cashClose }

/-- A machine after a boot, given what is stored. -/
structure Booted (site : CloseSite) (h : CloseHistory) (nextDepositNumber nextZNumber : Nat)
    (m : CloseMachine) : Prop where
  persisted : CloseHistory.Persisted site ⟨m, h.deposits, h.closes⟩
  retained : CloseHistory.retained ⟨m, h.deposits, h.closes⟩ = h.retained
  rows : m.zCloseDAO.content.stored = h.rows
  lastDepositNumber : m.lastDepositNumber =
    let last := (h.retained.getLast?.map (·.number)).getD 0
    if nextDepositNumber > last then nextDepositNumber - 1 else last
  lastCashCloseNumber : m.manager.lastCashCloseNumber =
    ((lastRow h.rows isCashClose).map (·.number)).getD 0
  day : m.manager.currentZClose = h.retained.foldl (ZClose.replayDeposit site.registry)
    (let last := ((lastRow h.rows isZClose).map (·.number)).getD 0
    loadCurrentZClose (if nextZNumber > last then nextZNumber - 1 else last)
      (((lastRow h.rows isZClose).map (·.closeTime)).getD 0)
      ((lastRow h.rows isZCloseWithDeposits).map (getZCloseFromRecordSet site.registry)))
  cashCloses : List.Forall₂ (fun first close => ∃ openTime,
      close = h.retained.foldl (ZClose.replayDeposit site.registry)
        (opened first.1 first.2 openTime))
    (firstNumbers h.rows site.cimCashs 1) m.manager.currentCashCloses

theorem forall₂_right {α β : Type} {R : α → β → Prop} {l : List α} {l' : List β}
    (related : List.Forall₂ R l l') {b : β} (hb : b ∈ l') :
    ∃ a ∈ l, R a b := by
  induction related with
  | nil => cases hb
  | cons here _ ih =>
    rcases mem_cons.1 hb with rfl | hb
    · exact ⟨_, mem_cons_self .., here⟩
    · obtain ⟨a, ha, related⟩ := ih hb
      exact ⟨a, mem_cons_of_mem _ ha, related⟩

/-! ## Looking closes up -/

section lookups

variable {schema : MultiPartSchema ZCloseRecord} {written : List ZCloseRecord}
  {base s : MultiPart ZCloseRecord}

theorem lookup_row (kept : base.Retains schema written) (keeps : base.Keeps s)
    (p : ZCloseRecord → Bool) :
    (s.findLast schema (accept p)).1 = lastRow base.content.stored p ∧
      base.Keeps (s.findLast schema (accept p)).2 := by
  have content : s.content = base.content := keeps.1.content
  obtain ⟨row, again⟩ := keeps.2.findLast_eq schema (kept.of_keeps keeps).filled (accept p)
  rw [content, firstDecided_accept] at row
  exact ⟨row, keeps.trans again.keeps⟩

end lookups

section boot

variable {site : CloseSite}

theorem loadCurrentCashCloses_eq {written : List ZCloseRecord} {base : ZCloseDAO}
    (kept : base.Retains site.closes.schema written) (now : Nat) (cimCashs : List CimCash)
    (number : Nat) {zCloseDAO : ZCloseDAO} (keeps : base.Keeps zCloseDAO) :
    List.Forall₂ (fun first close => ∃ openTime, close = opened first.1 first.2 openTime)
        (firstNumbers base.content.stored cimCashs number)
        (loadCurrentCashCloses site now cimCashs number zCloseDAO).1 ∧
      base.Keeps (loadCurrentCashCloses site now cimCashs number zCloseDAO).2 := by
  induction cimCashs generalizing number zCloseDAO with
  | nil => exact ⟨.nil, keeps⟩
  | cons cimCash cimCashs ih =>
    obtain ⟨row, keeps'⟩ := lookup_row kept keeps (isCloseOfCash cimCash.cimCashId)
    have loaded : (loadLastCashClose site.closes site.registry zCloseDAO cimCash.cimCashId).1 =
        (lastRow base.content.stored (isCloseOfCash cimCash.cimCashId)).map
          (getZCloseFromRecordSet site.registry) := congrArg (Option.map _) row
    rw [firstNumbers]
    unfold loadCurrentCashCloses
    dsimp only
    rw [loaded]
    cases lastRow base.content.stored (isCloseOfCash cimCash.cimCashId) with
    | none =>
      obtain ⟨rest, keeps''⟩ := ih number keeps'
      exact ⟨.cons ⟨_, rfl⟩ rest, keeps''⟩
    | some r =>
      obtain ⟨rest, keeps''⟩ := ih (resume r) keeps'
      exact ⟨.cons ⟨_, rfl⟩ rest, keeps''⟩

theorem ZClose.replayDeposit_keeps (registry : Registry) (close : ZClose) (d : Deposit) :
    (close.replayDeposit registry d).closeType = close.closeType ∧
      (close.replayDeposit registry d).cimCash = close.cimCash := by
  have header : (close.updateDepData (.ofDeposit d)).closeType = close.closeType ∧
      (close.updateDepData (.ofDeposit d)).cimCash = close.cimCash := by
    cases type : close.closeType <;> simp only [updateDepData, type] <;> split_ifs <;>
      first | exact ⟨type, rfl⟩ | exact ⟨rfl, rfl⟩
  have line (close' : ZClose) (line : DepositDetailRecord) :
      (close'.updateDepDetData registry (.ofDeposit d) line).closeType = close'.closeType ∧
        (close'.updateDepDetData registry (.ofDeposit d) line).cimCash = close'.cimCash := by
    cases type : close'.closeType <;> simp only [updateDepDetData, type] <;> split_ifs <;>
      exact ⟨type, rfl⟩
  rw [replayDeposit, ← header.1, ← header.2]
  generalize close.updateDepData (.ofDeposit d) = close'
  induction d.detailRecords generalizing close' with
  | nil => exact ⟨rfl, rfl⟩
  | cons l lines ih =>
    exact ⟨(ih _).1.trans (line close' l).1, (ih _).2.trans (line close' l).2⟩

theorem ZClose.foldl_replayDeposit_keeps (registry : Registry) (ds : List Deposit)
    (close : ZClose) :
    (ds.foldl (replayDeposit registry) close).closeType = close.closeType ∧
      (ds.foldl (replayDeposit registry) close).cimCash = close.cimCash := by
  induction ds generalizing close with
  | nil => exact ⟨rfl, rfl⟩
  | cons d ds ih =>
    obtain ⟨type, cash⟩ := close.replayDeposit_keeps registry d
    exact ⟨(ih _).1.trans type, (ih _).2.trans cash⟩

theorem foldl_keepCurrent (m : ZCloseManager) {cashCloses : List ZClose} {zClose : ZClose}
    (cash : ∀ x ∈ cashCloses, x.closeType = .cashClose) (day : zClose.closeType = .endOfDay) :
    (cashCloses ++ [zClose]).foldl keepCurrent m =
      { m with
        currentZClose := zClose, currentCashCloses := m.currentCashCloses ++ cashCloses } := by
  induction cashCloses generalizing m with
  | nil =>
    rw [nil_append, foldl_cons, foldl_nil, keepCurrent, day, append_nil]
  | cons x cashCloses ih =>
    have here : keepCurrent m x = { m with currentCashCloses := m.currentCashCloses ++ [x] } := by
      rw [keepCurrent, cash x (mem_cons_self ..)]
    rw [cons_append, foldl_cons, here, ih _ fun y hy => cash y (mem_cons_of_mem x hy), append_assoc]
    rfl

theorem firstDepositNumber_le (closes : List ZClose) : firstDepositNumber closes ≤ 1 := by
  have below (number : Nat) : closes.foldl (fun number close =>
      if close.fromDepositNumber < number then close.fromDepositNumber else number) number ≤
        number := by
    induction closes generalizing number with
    | nil => exact Nat.le_refl _
    | cons close closes ih =>
      refine Nat.le_trans (ih _) ?_
      show (if close.fromDepositNumber < number then _ else _) ≤ number
      split_ifs <;> omega
  exact below 1

namespace CloseHistory.Persisted

variable {h : CloseHistory}

theorem walk_all {σ : Type} (p : Persisted site h)
    (w : Walk DepositRecord DepositDetailRecord σ) (state : σ) {number : Nat}
    (low : number ≤ 1) :
    let step := (h.machine.getNewDepositRecordSet site).findById site.tables.headers
      site.tables.headers.idField number
    h.machine.walkDeposits site w state
        (if step.1 then step.2 else (step.2.moveFirst site.tables.headers).2) =
      (h.retained.takeWhile fun d => !w.stop (.ofDeposit d)).foldl (visitDeposit w) state := by
  intro step
  obtain ⟨sync, fresh⟩ := p.fresh_deposits
  obtain ⟨sorted, grows⟩ := p.sorted_deposits
  have positive (r : DepositRecord) (hr : r ∈ h.machine.depositDAO.deposits.content.stored) :
      0 < r.number := by
    rw [p.stored_headers] at hr
    obtain ⟨d, hd, rfl⟩ := mem_map.1 hr
    rw [p.number (mem_of_retained hd)]
    exact (p.bounded d (mem_of_retained hd)).1
  have keeps : (h.machine.getNewDepositRecordSet site).Keeps step.2 :=
    (sync.moves_binarySearch site.tables.headers site.tables.headers.idField number).keeps
  have first := keeps.2.moves_moveFirst site.tables.headers
  cases found : step.1 with
  | true =>
    obtain ⟨i, here, r, hr, id⟩ := (sync.binarySearch_found (fresh ▸ sorted) number).2 found
    -- numbers grow from 1 on, so that only the first record can have so low a one
    have at_first : i = 0 := by
      by_contra later
      rw [fresh] at hr
      obtain ⟨hi, read⟩ := List.getElem?_eq_some_iff.1 hr
      have less := pairwise_iff_getElem.1 grows 0 i (by omega) hi (by omega)
      have above := positive _ (getElem_mem (by omega : 0 < _))
      have id' : r.number = number := id
      rw [read, id'] at less
      omega
    subst at_first
    rw [if_pos rfl, p.walkDeposits w state keeps here, drop_zero]
  | false =>
    rw [if_neg Bool.false_ne_true]
    have stepContent : step.2.content = h.machine.depositDAO.deposits.content :=
      keeps.1.content.trans fresh
    obtain ⟨some, none⟩ := keeps.2.moveFirst_atRecord site.tables.headers
      (stepContent ▸ sorted.filled)
    by_cases rows : step.2.content.rows = []
    · have empty : h.retained = [] := by
        rw [stepContent] at rows
        have stored : h.machine.depositDAO.deposits.content.stored = [] := by
          simp [Content.stored, Content.files, rows]
        rw [p.stored_headers] at stored
        exact map_eq_nil_iff.1 stored
      have rows' : (step.2.moveFirst site.tables.headers).2.content.rows = [] := by
        rw [first.1.content, rows]
      rw [CloseMachine.walkDeposits, walk_eof w _ state (eof_of_empty rows'), empty]
      rfl
    · rw [p.walkDeposits w state (keeps.trans first.keeps) (some rows).2, drop_zero]

theorem replay_all (p : Persisted site h) (closes : List ZClose) :
    let step := (h.machine.getNewDepositRecordSet site).findById site.tables.headers
      site.tables.headers.idField (firstDepositNumber closes)
    h.machine.walkDeposits site (replayAll site.registry) closes
        (if step.1 then step.2 else (step.2.moveFirst site.tables.headers).2) =
      closes.map fun close => h.retained.foldl (ZClose.replayDeposit site.registry) close := by
  intro step
  have all : h.retained.takeWhile (fun d =>
      !(replayAll site.registry).stop (.ofDeposit d)) = h.retained :=
    takeWhile_eq_self_iff.2 fun _ _ => rfl
  have run := p.walk_all (replayAll site.registry) closes (firstDepositNumber_le closes)
  rw [all] at run
  exact run.trans (foldl_replayAll site.registry h.retained closes)

theorem loadCloses (p : Persisted site h) (nextZNumber now : Nat) :
    let m := h.machine.loadCloses site nextZNumber now
    m.depositDAO = h.machine.depositDAO ∧ h.machine.zCloseDAO.Keeps m.zCloseDAO ∧
      m.lastDepositNumber = h.machine.lastDepositNumber ∧
      m.manager.lastCashCloseNumber = h.machine.manager.lastCashCloseNumber ∧
      m.manager.currentZClose = h.retained.foldl (ZClose.replayDeposit site.registry)
        (loadCurrentZClose
          (if nextZNumber > h.machine.manager.lastZCloseNumber then nextZNumber - 1
            else h.machine.manager.lastZCloseNumber)
          (((lastRow h.rows isZClose).map (·.closeTime)).getD 0)
          ((lastRow h.rows isZCloseWithDeposits).map (getZCloseFromRecordSet site.registry))) ∧
      List.Forall₂ (fun first close => ∃ openTime,
          close = h.retained.foldl (ZClose.replayDeposit site.registry)
            (opened first.1 first.2 openTime))
        (firstNumbers h.rows site.cimCashs 1) m.manager.currentCashCloses := by
  intro m
  obtain ⟨time, keeps₁⟩ := lookup_row p.closes p.closes.synced.keeps isZClose
  obtain ⟨withDeposits, keeps₂⟩ := lookup_row p.closes keeps₁ isZCloseWithDeposits
  obtain ⟨loaded, keeps₃⟩ := loadCurrentCashCloses_eq p.closes now site.cimCashs 1 keeps₂
  have lastTime : (getLastZCloseCloseTime site.closes h.machine.zCloseDAO).1 =
      ((lastRow h.rows isZClose).map (·.closeTime)).getD 0 :=
    congrArg (fun row => (row.map (·.closeTime)).getD 0) time
  have lastZClose : (loadLastWithDeposits site.closes site.registry
      (getLastZCloseCloseTime site.closes h.machine.zCloseDAO).2).1 =
      (lastRow h.rows isZCloseWithDeposits).map (getZCloseFromRecordSet site.registry) :=
    congrArg (Option.map _) withDeposits
  let number := if nextZNumber > h.machine.manager.lastZCloseNumber then nextZNumber - 1
    else h.machine.manager.lastZCloseNumber
  let z := loadCurrentZClose number
    (getLastZCloseCloseTime site.closes h.machine.zCloseDAO).1
    (loadLastWithDeposits site.closes site.registry
      (getLastZCloseCloseTime site.closes h.machine.zCloseDAO).2).1
  let cash := loadCurrentCashCloses site now site.cimCashs 1
    (loadLastWithDeposits site.closes site.registry
      (getLastZCloseCloseTime site.closes h.machine.zCloseDAO).2).2
  let before : ZCloseManager :=
    { h.machine.manager with
      lastZCloseTime := (getLastZCloseCloseTime site.closes h.machine.zCloseDAO).1
      lastZCloseNumber := number, currentZClose := z, currentCashCloses := [] }
  have manager : m.manager = ((cash.1 ++ [z]).map fun close =>
      h.retained.foldl (ZClose.replayDeposit site.registry) close).foldl keepCurrent before := by
    rw [← p.replay_all (cash.1 ++ [z])]
    rfl
  have type (close : ZClose) :
      (h.retained.foldl (ZClose.replayDeposit site.registry) close).closeType = close.closeType :=
    (ZClose.foldl_replayDeposit_keeps site.registry h.retained close).1
  have cashType (x : ZClose) (hx : x ∈ cash.1.map fun close =>
      h.retained.foldl (ZClose.replayDeposit site.registry) close) : x.closeType = .cashClose := by
    obtain ⟨close, hclose, rfl⟩ := mem_map.1 hx
    obtain ⟨first, -, openTime, rfl⟩ := forall₂_right loaded hclose
    rw [type]
    rfl
  rw [map_append, map_singleton, foldl_keepCurrent before cashType (type z)] at manager
  refine ⟨rfl, keeps₃, rfl, by rw [manager], ?_, ?_⟩
  · rw [manager, ← lastTime, ← lastZClose]
  rw [manager]
  refine List.forall₂_map_right_iff.2 (loaded.imp fun first close here => ?_)
  obtain ⟨openTime, rfl⟩ := here
  exact ⟨openTime, rfl⟩

theorem last_number (p : Persisted site h) :
    (if (h.machine.depositDAO.deposits.moveLast site.tables.headers).1
      then (h.machine.depositDAO.deposits.moveLast site.tables.headers).2.data.buffer.number
      else 0) = (h.retained.getLast?.map (·.number)).getD 0 := by
  obtain ⟨level, aligned⟩ := p.sound.aligned
  have moved := p.sound.deposits.moves_moveLast site.tables.headers
  obtain ⟨some, none⟩ := p.sound.deposits.moveLast_atRecord site.tables.headers
    aligned.wellFormed.sorted.filled
  have content := p.stored_headers
  by_cases rows : h.machine.depositDAO.deposits.content.rows = []
  · have empty : h.machine.depositDAO.deposits.content.stored = [] := by
      simp [Content.stored, Content.files, rows]
    rw [empty] at content
    rw [none rows, map_eq_nil_iff.1 content.symm]
    rfl
  · obtain ⟨hit, here⟩ := some rows
    have read : (h.machine.depositDAO.deposits.moveLast site.tables.headers).2.content.stored[
        h.machine.depositDAO.deposits.content.stored.length - 1]? = _ := here.buffer
    rw [moved.1.content, content, length_map, List.getElem?_map,
      ← List.getLast?_eq_getElem?] at read
    obtain ⟨d, hd, same⟩ := Option.map_eq_some_iff.1 read
    rw [hit, if_pos rfl, hd, ← same, p.number (mem_of_retained (mem_of_getLast? hd))]
    rfl

theorem boot_eq (self : CloseMachine) (nextDepositNumber nextZNumber now : Nat) :
    self.boot site nextDepositNumber nextZNumber now =
      (let deposits := self.depositDAO.reopen site.tables
      let last := deposits.deposits.moveLast site.tables.headers
      let stored := if last.1 then last.2.data.buffer.number else 0
      let zNumber := getLastZCloseNumber site.closes
        (self.zCloseDAO.reopen site.closes.schema)
      let cashNumber := getLastCashCloseNumber site.closes zNumber.2
      CloseMachine.loadCloses site
        { depositDAO := { deposits with deposits := last.2 }
          zCloseDAO := cashNumber.2
          lastDepositNumber :=
            if nextDepositNumber > stored then nextDepositNumber - 1 else stored
          manager := ⟨0, zNumber.1, cashNumber.1, .new, []⟩ } nextZNumber now) := by
  rw [CloseMachine.boot]

theorem boot_reads (p : Persisted site h) (nextDepositNumber nextZNumber now : Nat) :
    ∃ loading : CloseMachine,
      h.machine.boot site nextDepositNumber nextZNumber now =
        loading.loadCloses site nextZNumber now ∧
      Persisted site ⟨loading, h.deposits, h.closes⟩ ∧
      CloseHistory.retained ⟨loading, h.deposits, h.closes⟩ = h.retained ∧
      CloseHistory.rows ⟨loading, h.deposits, h.closes⟩ = h.rows ∧
      loading.lastDepositNumber =
        (let last := (h.retained.getLast?.map (·.number)).getD 0
        if nextDepositNumber > last then nextDepositNumber - 1 else last) ∧
      loading.manager.lastZCloseNumber = ((lastRow h.rows isZClose).map (·.number)).getD 0 ∧
      loading.manager.lastCashCloseNumber =
        ((lastRow h.rows isCashClose).map (·.number)).getD 0 := by
  obtain ⟨opened, hopened⟩ : ∃ m : CloseMachine, m =
      { h.machine with
        depositDAO := h.machine.depositDAO.reopen site.tables
        zCloseDAO := h.machine.zCloseDAO.reopen site.closes.schema } := ⟨_, rfl⟩
  have deposits : opened.depositDAO = h.machine.depositDAO.reopen site.tables := by rw [hopened]
  have closes : opened.zCloseDAO = h.machine.zCloseDAO.reopen site.closes.schema := by rw [hopened]
  have p₀ : Persisted site ⟨opened, h.deposits, h.closes⟩ := p.reopen deposits closes
  have retained₀ := p.retained_reopen deposits h.closes
  have rows₀ : opened.zCloseDAO.content.stored = h.rows := by
    rw [closes]
    exact (congrArg Content.stored (reopen_content p.closes.synced p.closes.shaped).2).trans
      (Content.reload_stored _ _)
  have stored := p₀.last_number
  have moved := p₀.sound.deposits.moves_moveLast site.tables.headers
  obtain ⟨zRow, keeps₁⟩ := lookup_row p₀.closes p₀.closes.synced.keeps isZClose
  obtain ⟨cashRow, keeps₂⟩ := lookup_row p₀.closes keeps₁ isCashClose
  have zNumber : (getLastZCloseNumber site.closes opened.zCloseDAO).1 =
      ((lastRow h.rows isZClose).map (·.number)).getD 0 := by
    rw [← rows₀]
    exact congrArg (fun row => (row.map (·.number)).getD 0) zRow
  have cashNumber : (getLastCashCloseNumber site.closes
      (getLastZCloseNumber site.closes opened.zCloseDAO).2).1 =
      ((lastRow h.rows isCashClose).map (·.number)).getD 0 := by
    rw [← rows₀]
    exact congrArg (fun row => (row.map (·.number)).getD 0) cashRow
  have keeps : opened.zCloseDAO.Keeps (getLastCashCloseNumber site.closes
      (getLastZCloseNumber site.closes opened.zCloseDAO).2).2 := keeps₂
  rw [boot_eq, ← deposits, ← closes]
  dsimp only at stored ⊢
  rw [stored, retained₀, zNumber, cashNumber]
  generalize (getLastCashCloseNumber site.closes
    (getLastZCloseNumber site.closes opened.zCloseDAO).2).2 = zCloseDAO at keeps
  generalize (opened.depositDAO.deposits.moveLast site.tables.headers).2 = last at moved
  have keepsDeposits : opened.depositDAO.Keeps { opened.depositDAO with deposits := last } :=
    ⟨moved.keeps, p₀.sound.details.keeps⟩
  refine ⟨_, rfl, p₀.of_keeps keepsDeposits keeps, ?_, ?_, rfl, rfl, rfl⟩
  · exact (retained_keeps (h := ⟨opened, h.deposits, h.closes⟩) keepsDeposits h.closes).trans
      retained₀
  · exact (congrArg Content.stored keeps.1.content).trans rows₀

theorem boot (p : Persisted site h) (nextDepositNumber nextZNumber now : Nat) :
    Booted site h nextDepositNumber nextZNumber
      (h.machine.boot site nextDepositNumber nextZNumber now) := by
  obtain ⟨loading, run, p₁, retained, rows, number, zNumber, cashNumber⟩ :=
    p.boot_reads nextDepositNumber nextZNumber now
  have loaded := p₁.loadCloses nextZNumber now
  rw [run]
  generalize loading.loadCloses site nextZNumber now = m at loaded
  obtain ⟨depositDAO, zCloseDAO, lastDepositNumber, lastCashCloseNumber, day, cashCloses⟩ := loaded
  rw [retained, rows] at day cashCloses
  have keeps : loading.depositDAO.Keeps m.depositDAO := by
    rw [depositDAO]
    exact ⟨p₁.sound.deposits.keeps, p₁.sound.details.keeps⟩
  refine ⟨p₁.of_keeps keeps zCloseDAO, ?_, ?_, ?_, ?_, ?_, cashCloses⟩
  · exact (retained_keeps (h := ⟨loading, h.deposits, h.closes⟩) keeps h.closes).trans retained
  · exact (congrArg Content.stored zCloseDAO.1.content).trans rows
  · exact lastDepositNumber.trans number
  · exact lastCashCloseNumber.trans cashNumber
  · rw [← zNumber]
    exact day

end CloseHistory.Persisted

end boot

end CimArm
