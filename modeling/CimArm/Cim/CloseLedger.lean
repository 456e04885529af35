import CimArm.Cim.CloseBoot
import Mathlib.Logic.Relation

/-!
# The ledger of a site

What a site does to its deposits and closes, without the tables they are kept in.  A
`Ledger` has every deposit and close that was ever stored, how many of the oldest the
tables have dropped, and the open closes.  It moves in four ways (`Ledger.Step`): a
deposit ends, a cash close or a Z close is generated, or the site is restarted and the
open closes are rebuilt from what the tables still have.  `Ledger.Sound` holds of every
ledger that these moves lead to (`Step.sound`).
-/

namespace CimArm

open CloseMachine ZCloseDAO List

/-! ## What a move does to one close -/

/-- What the details of a deposit add to a Z close. -/
def zCalls (d : Deposit) : List ZCall := d.depositDetails.map (.ofDeposit d)

/-- What the details of a deposit add to the close of its cash. -/
def cashCalls (d : Deposit) : List CashCall := d.depositDetails.map (.ofDeposit d)

namespace ZClose

/-- An open close after a deposit has ended. -/
def take (close : ZClose) (d : Deposit) : ZClose :=
  match close.closeType with
  | .endOfDay => { ZCloseManager.takeNumber d.number close with
      rejectedQty := close.rejectedQty + d.rejectedQty
      zCloseDetails := (zCalls d).foldl insertZDetail close.zCloseDetails
      cashReferenceSummaries := (zCalls d).foldl addSummary close.cashReferenceSummaries }
  | .cashClose => { ZCloseManager.takeNumber d.number close with
      zCloseDetails :=
        if close.cimCash = d.cimCash then (cashCalls d).foldl insertCashDetail close.zCloseDetails
        else close.zCloseDetails }

/-- A close that was generated from an open one: what it totals is the same. -/
structure ClosedAs (x closed : ZClose) : Prop where
  closeType : closed.closeType = x.closeType
  cimCash : closed.cimCash = x.cimCash
  fromDepositNumber : closed.fromDepositNumber = x.fromDepositNumber
  toDepositNumber : closed.toDepositNumber = x.toDepositNumber
  zCloseDetails : closed.zCloseDetails = x.zCloseDetails
  cashReferenceSummaries : closed.cashReferenceSummaries = x.cashReferenceSummaries
  rejectedQty : closed.rejectedQty = x.rejectedQty

variable (close : ZClose) (d : Deposit)

@[simp] theorem take_closeType : (close.take d).closeType = close.closeType := by
  cases type : close.closeType <;> simp [take, type, ZCloseManager.takeNumber]

@[simp] theorem take_cimCash : (close.take d).cimCash = close.cimCash := by
  cases type : close.closeType <;> simp [take, type, ZCloseManager.takeNumber]

@[simp] theorem take_number : (close.take d).number = close.number := by
  cases type : close.closeType <;> simp [take, type, ZCloseManager.takeNumber]

@[simp] theorem take_toDepositNumber : (close.take d).toDepositNumber = d.number := by
  cases type : close.closeType <;> simp [take, type, ZCloseManager.takeNumber]

@[simp] theorem take_fromDepositNumber : (close.take d).fromDepositNumber =
      if close.fromDepositNumber = 0 then d.number else close.fromDepositNumber := by
  cases type : close.closeType <;> simp [take, type, ZCloseManager.takeNumber]

theorem take_belongs (d' : Deposit) : (close.take d).Belongs d' ↔ close.Belongs d' := by
  rw [Belongs, Belongs, take_closeType, take_cimCash]

theorem ClosedAs.belongs {x closed : ZClose} (same : x.ClosedAs closed) (d : Deposit) :
    closed.Belongs d ↔ x.Belongs d := by
  rw [Belongs, Belongs, same.closeType, same.cimCash]

end ZClose

/-! ## Numbers of closes -/

/-- The closes of a type have growing numbers below a bound. -/
structure NumbersBelow (type : CloseType) (closes : List ZClose) (bound : Nat) : Prop where
  growing : (closes.filter (·.closeType = type)).Pairwise fun a b => a.number < b.number
  below : ∀ x ∈ closes, x.closeType = type → x.number < bound

namespace NumbersBelow

variable {type : CloseType} {closes closes' : List ZClose} {bound bound' : Nat}

theorem nil (type : CloseType) (bound : Nat) : NumbersBelow type [] bound :=
  ⟨List.Pairwise.nil, by simp⟩

theorem sublist (numbers : NumbersBelow type closes bound) (sub : closes'.Sublist closes) :
    NumbersBelow type closes' bound :=
  ⟨numbers.growing.sublist (sub.filter _), fun x hx => numbers.below x (sub.subset hx)⟩

theorem mono (numbers : NumbersBelow type closes bound) (le : bound ≤ bound') :
    NumbersBelow type closes bound' :=
  ⟨numbers.growing, fun x hx same => Nat.lt_of_lt_of_le (numbers.below x hx same) le⟩

variable (bound') in
theorem append (numbers : NumbersBelow type closes bound) {x : ZClose}
    (above : x.closeType = type → bound ≤ x.number ∧ x.number < bound') (le : bound ≤ bound') :
    NumbersBelow type (closes ++ [x]) bound' := by
  constructor
  · rw [filter_append, pairwise_append]
    refine ⟨numbers.growing, ?_, fun a ha b hb => ?_⟩
    · exact (pairwise_singleton _ x).sublist (filter_sublist)
    · obtain ⟨ha, same⟩ := mem_filter.1 ha
      obtain ⟨hb, same'⟩ := mem_filter.1 hb
      obtain rfl := mem_singleton.1 hb
      exact Nat.lt_of_lt_of_le (numbers.below a ha (of_decide_eq_true same))
        (above (of_decide_eq_true same')).1
  · intro a ha same
    rcases mem_append.1 ha with ha | ha
    · exact Nat.lt_of_lt_of_le (numbers.below a ha same) le
    · obtain rfl := mem_singleton.1 ha
      exact (above same).2

theorem le_last (numbers : NumbersBelow type closes bound) {last : ZClose}
    (found : closes.reverse.find? (fun x => x.closeType = type) = some last) {x : ZClose}
    (hx : x ∈ closes) (same : x.closeType = type) : x.number ≤ last.number := by
  obtain ⟨isType, after, before, split, none⟩ := List.find?_eq_some_iff_append.1 found
  have order : closes = before.reverse ++ last :: after.reverse := by
    have := congrArg List.reverse split
    simpa using this
  have growing := numbers.growing
  rw [order, filter_append, filter_cons_of_pos (by simpa using isType), pairwise_append] at growing
  rw [order, mem_append, mem_cons, mem_reverse, mem_reverse] at hx
  rcases hx with hx | rfl | hx
  · exact Nat.le_of_lt (growing.2.2 x (mem_filter.2 ⟨mem_reverse.2 hx,
      decide_eq_true same⟩) last (mem_cons_self ..))
  · exact Nat.le_refl _
  · have := none x hx
    simp [same] at this

theorem restart (numbers : NumbersBelow type closes bound) :
    NumbersBelow type closes
      (((closes.reverse.find? fun x => x.closeType = type).map (·.number)).getD 0 + 1) := by
  refine ⟨numbers.growing, fun x hx same => ?_⟩
  cases found : closes.reverse.find? fun x => decide (x.closeType = type) with
  | none =>
    have := List.find?_eq_none.1 found x (mem_reverse.2 hx)
    simp [same] at this
  | some last => exact Nat.lt_succ_of_le (numbers.le_last found hx same)

end NumbersBelow

/-! ## Ledgers -/

/-- All deposits and closes of a site, how many the tables have dropped, and the open
closes. -/
structure Ledger : Type where
  deposits : List Deposit
  dropped : Nat
  closes : List ZClose
  droppedCloses : Nat
  day : ZClose
  cashCloses : List ZClose
  lastCashCloseNumber : Nat

namespace Ledger

variable (l : Ledger)

/-- The deposits the tables still have. -/
def retained : List Deposit := l.deposits.drop l.dropped

/-- The closes the tables still have. -/
def retainedCloses : List ZClose := l.closes.drop l.droppedCloses

def rows : List ZCloseRecord := l.retainedCloses.map .ofClose

/-- The last deposit number. -/
def top : Nat := ZClose.lastNumber l.deposits 0

/-- The ledger after a deposit. -/
def deposit (d : Deposit) (dropped : Nat) : Ledger :=
  { l with
    deposits := l.deposits ++ [d], dropped := dropped, day := l.day.take d
    cashCloses := l.cashCloses.map (·.take d) }

/-- The ledger after one of the cash closes was generated and the next one opened. -/
def closeCash (before rest : List ZClose) (closed : ZClose) (now droppedCloses : Nat) : Ledger :=
  { l with
    closes := l.closes ++ [closed], droppedCloses := droppedCloses
    cashCloses := before ++ nextCashClose closed now :: rest
    lastCashCloseNumber := l.lastCashCloseNumber + 1 }

/-- The ledger after the Z close was generated. -/
def closeDay (closed day : ZClose) (droppedCloses : Nat) : Ledger :=
  { l with closes := l.closes ++ [closed], droppedCloses := droppedCloses, day := day }

/-- The Z close that a restart opens. -/
def firstDay (registry : Registry) (nextZNumber : Nat) : ZClose :=
  let last := ((lastRow l.rows isZClose).map (·.number)).getD 0
  loadCurrentZClose (if nextZNumber > last then nextZNumber - 1 else last)
    (((lastRow l.rows isZClose).map (·.closeTime)).getD 0)
    ((lastRow l.rows isZCloseWithDeposits).map (getZCloseFromRecordSet registry))

/-- The ledger after a restart: the deposits are replayed into the Z close and into the
closes of the cashes. -/
def restart (registry : Registry) (nextZNumber : Nat) (first : List ZClose) : Ledger :=
  { l with
    day := l.retained.foldl (ZClose.replayDeposit registry) (l.firstDay registry nextZNumber)
    cashCloses := first.map fun close => l.retained.foldl (ZClose.replayDeposit registry) close
    lastCashCloseNumber := ((lastRow l.rows isCashClose).map (·.number)).getD 0 }

/-- A deposit that can follow others: its number comes next, and it has details and a cash. -/
structure Follows (site : CloseSite) (deposits : List Deposit) (d : Deposit) : Prop where
  after : ∀ d' ∈ deposits, d'.number < d.number
  positive : 0 < d.number
  room : d.number + 1 < ulongSize
  filled : d.depositDetails ≠ []
  cash : ∃ cash ∈ site.cimCashs, d.cimCash = some cash

/-- The moves of a site. A restart is possible in the ledgers that are `Ready`. -/
inductive Step (site : CloseSite) (Ready : Ledger → Prop) : Ledger → Ledger → Prop
  | deposit {l : Ledger} {d : Deposit} {dropped : Nat} (follows : Follows site l.deposits d)
      (forgets : l.dropped ≤ dropped) (newest : dropped ≤ l.deposits.length) :
      Step site Ready l (l.deposit d dropped)
  | closeCash {l : Ledger} {before rest : List ZClose} {x closed : ZClose}
      {now droppedCloses : Nat} (current : l.cashCloses = before ++ x :: rest)
      (same : x.ClosedAs closed) (number : closed.number = l.lastCashCloseNumber + 1)
      (room : l.lastCashCloseNumber + 1 < ulongSize) (forgets : l.droppedCloses ≤ droppedCloses) :
      Step site Ready l (l.closeCash before rest closed now droppedCloses)
  | closeDay {l : Ledger} {closed day : ZClose} {droppedCloses : Nat}
      (same : l.day.ClosedAs closed) (number : closed.number = l.day.number)
      (fresh : ZClose.new.ClosedAs day) (above : l.day.number < day.number)
      (room : day.number < ulongSize) (forgets : l.droppedCloses ≤ droppedCloses) :
      Step site Ready l (l.closeDay closed day droppedCloses)
  | restart {l : Ledger} {nextZNumber : Nat} {first : List ZClose} (ready : Ready l)
      (room : nextZNumber < ulongSize)
      (loaded : List.Forall₂ (fun first close => ∃ openTime,
        close = opened first.1 first.2 openTime) (firstNumbers l.rows site.cimCashs 1) first) :
      Step site Ready l (l.restart site.registry nextZNumber first)

/-! ## The range of an open close -/

/-- The bounds of a close are within what the site has numbered. -/
structure Bounds (top : Nat) (x : ZClose) : Prop where
  from_le : x.fromDepositNumber ≤ top + 1
  to_le : x.toDepositNumber ≤ top
  forward : x.toDepositNumber ≠ 0 →
    x.fromDepositNumber ≠ 0 ∧ x.fromDepositNumber ≤ x.toDepositNumber

/-- An open close reaches to the last of the deposits it is about: they are all behind its
first number while it has none, and none is behind its last number. -/
structure Spans (l : Ledger) (x : ZClose) : Prop extends Bounds l.top x where
  pending : x.toDepositNumber = 0 → x.fromDepositNumber ≠ 0 →
    ∀ d ∈ l.retained, x.Belongs d → d.number < x.fromDepositNumber
  last : x.toDepositNumber ≠ 0 → ∀ d ∈ l.deposits, x.Belongs d → d.number ≤ x.toDepositNumber

theorem Spans.congr {l l' : Ledger} {x : ZClose} (spans : l.Spans x)
    (deposits : l'.deposits = l.deposits) (dropped : l'.dropped = l.dropped) : l'.Spans x := by
  have top : l'.top = l.top := by rw [Ledger.top, deposits, Ledger.top]
  have retained : l'.retained = l.retained := by rw [Ledger.retained, deposits, dropped,
    Ledger.retained]
  refine ⟨top ▸ spans.toBounds, ?_, ?_⟩
  · rw [retained]
    exact spans.pending
  · rw [deposits]
    exact spans.last

/-- What holds of every ledger of a site. -/
structure Sound (site : CloseSite) (l : Ledger) : Prop where
  growing : l.deposits.Pairwise fun a b => a.number < b.number
  bounded : ∀ d ∈ l.deposits, 0 < d.number ∧ d.number + 1 < ulongSize
  filled : ∀ d ∈ l.deposits, d.depositDetails ≠ []
  cashs : ∀ d ∈ l.deposits, ∃ cash ∈ site.cimCashs, d.cimCash = some cash
  dropped_le : l.dropped ≤ l.deposits.length
  newest : l.deposits ≠ [] → l.dropped < l.deposits.length
  ofDay : l.day.closeType = .endOfDay
  ofCash : ∀ x ∈ l.cashCloses, x.closeType = .cashClose ∧ x.fromDepositNumber ≠ 0
  cimCashs : l.cashCloses.map (·.cimCash) = site.cimCashs.map some
  day : l.Spans l.day
  cash : ∀ x ∈ l.cashCloses, l.Spans x
  kept : ∀ x ∈ l.closes, site.Keeps x ∧ Bounds l.top x ∧
    (x.closeType = .cashClose → x.fromDepositNumber ≠ 0)
  zNumbers : NumbersBelow .endOfDay l.retainedCloses l.day.number
  cashNumbers : NumbersBelow .cashClose l.retainedCloses (l.lastCashCloseNumber + 1)
  room : l.day.number < ulongSize ∧ l.lastCashCloseNumber < ulongSize

namespace Sound

variable {l} {site : CloseSite}

theorem le_top (sound : Sound site l) {d : Deposit} (hd : d ∈ l.deposits) : d.number ≤ l.top :=
  ZClose.le_lastNumber sound.growing hd 0

theorem top_room (sound : Sound site l) : l.top + 1 < ulongSize := by
  by_cases empty : l.deposits = []
  · rw [top, empty]
    decide
  · obtain ⟨d, hd, same⟩ := ZClose.lastNumber_mem empty 0
    rw [top, same]
    exact (sound.bounded d hd).2

theorem mem_of_retained {d : Deposit} (hd : d ∈ l.retained) : d ∈ l.deposits :=
  mem_of_mem_drop hd

theorem lt_of_not_retained (sound : Sound site l) {d d' : Deposit} (hd : d ∈ l.deposits)
    (gone : d ∉ l.retained) (hd' : d' ∈ l.retained) : d.number < d'.number := by
  have growing := sound.growing
  rw [← take_append_drop l.dropped l.deposits] at hd growing
  have early := (mem_append.1 hd).resolve_right gone
  exact (pairwise_append.1 growing).2.2 d early d' hd'

theorem replayed (sound : Sound site l) {close : ZClose} (kept : site.Keeps close)
    (first : close.fromDepositNumber ≠ 0) (le : close.fromDepositNumber ≤ l.top + 1)
    (empty : close.toDepositNumber = 0) :
    let x := l.retained.foldl (ZClose.replayDeposit site.registry) close
    x.closeType = close.closeType ∧ x.cimCash = close.cimCash ∧ x.number = close.number ∧
      x.fromDepositNumber = close.fromDepositNumber ∧ x.rejectedQty = close.rejectedQty ∧
      l.Spans x := by
  intro x
  have run : x = _ := ZClose.foldl_replayDeposit kept first
    (fun d hd => sound.cashs d (mem_of_retained hd))
    (fun d hd => toULong_of_lt (Nat.lt_of_succ_lt (sound.bounded d (mem_of_retained hd)).2))
  obtain ⟨type, cash, number, from_, to_, rejected⟩ :=
    ZClose.foldl_absorb_fields site.registry close (l.retained.filter fun d => close.Takes d)
  rw [← run] at type cash number from_ to_ rejected
  rw [empty] at to_
  have belongs (d : Deposit) : x.Belongs d ↔ close.Belongs d := by
    rw [ZClose.Belongs, ZClose.Belongs, type, cash]
  refine ⟨type, cash, number, from_, rejected, ?_⟩
  generalize taken_eq : (l.retained.filter fun d => close.Takes d) = taken at to_
  have mem_taken (d : Deposit) : d ∈ taken ↔ d ∈ l.retained ∧ close.Takes d := by
    rw [← taken_eq, mem_filter, decide_eq_true_eq]
  have growing : taken.Pairwise fun a b => a.number < b.number := by
    rw [← taken_eq]
    exact (sound.growing.sublist (drop_sublist _ _)).sublist filter_sublist
  by_cases none : taken = []
  · -- no retained deposit is taken
    rw [none] at to_
    have zero : x.toDepositNumber = 0 := to_
    refine ⟨⟨from_ ▸ le, by rw [zero]; exact Nat.zero_le _, fun some => absurd zero some⟩,
      fun _ _ d hd mine => ?_, fun some => absurd zero some⟩
    rw [from_]
    by_contra late
    have := (mem_taken d).2 ⟨hd, Nat.not_lt.1 late, (belongs d).1 mine⟩
    rw [none] at this
    cases this
  · obtain ⟨last, hlast, same⟩ := ZClose.lastNumber_mem none 0
    obtain ⟨retained, reaches, -⟩ := (mem_taken last).1 hlast
    have written := mem_of_retained retained
    have to_eq : x.toDepositNumber = last.number := to_.trans same
    have positive := (sound.bounded last written).1
    refine ⟨⟨from_ ▸ le, to_eq ▸ sound.le_top written, fun _ => ⟨from_ ▸ first, ?_⟩⟩,
      fun zero => ?_, fun _ d hd mine => ?_⟩
    · rw [from_, to_eq]
      exact reaches
    · omega
    · rw [to_eq]
      by_cases here : d ∈ l.retained
      · rcases Nat.lt_or_ge d.number close.fromDepositNumber with early | late
        · omega
        · rw [← same]
          exact ZClose.le_lastNumber growing
            ((mem_taken d).2 ⟨here, late, (belongs d).1 mine⟩) 0
      · exact Nat.le_of_lt (sound.lt_of_not_retained hd here retained)

/-! ## What a restart reads -/

theorem number_room (sound : Sound site l) {x : ZClose} (hx : x ∈ l.retainedCloses) :
    x.number < ulongSize := by
  cases type : x.closeType with
  | endOfDay => exact Nat.lt_trans (sound.zNumbers.below x hx type) sound.room.1
  | cashClose => exact Nat.lt_of_lt_of_le (sound.cashNumbers.below x hx type) sound.room.2

theorem row (sound : Sound site l) {r : ZCloseRecord} (hr : r ∈ l.rows) :
    ∃ x ∈ l.retainedCloses, r = .ofClose x ∧ r.closeType = x.closeType ∧ r.number = x.number ∧
      r.fromDepositNumber = x.fromDepositNumber ∧ r.toDepositNumber = x.toDepositNumber := by
  obtain ⟨x, hx, rfl⟩ := mem_map.1 hr
  obtain ⟨-, bounds, -⟩ := sound.kept x (mem_of_mem_drop hx)
  have top := sound.top_room
  have from_le := bounds.from_le
  have to_le := bounds.to_le
  exact ⟨x, hx, rfl, rfl, toULong_of_lt (sound.number_room hx), toULong_of_lt (by omega),
    toULong_of_lt (by omega)⟩

theorem lastRow_number (sound : Sound site l) (type : CloseType) :
    ((lastRow l.rows fun r => r.closeType = type).map (·.number)).getD 0 =
      ((l.retainedCloses.reverse.find? fun x => x.closeType = type).map (·.number)).getD 0 := by
  have same : lastRow l.rows (fun r => r.closeType = type) =
      (l.retainedCloses.reverse.find? fun x => x.closeType = type).map .ofClose := by
    rw [lastRow, rows, ← map_reverse, List.find?_map]
    rfl
  rw [same]
  cases found : l.retainedCloses.reverse.find? fun x => decide (x.closeType = type) with
  | none => rfl
  | some last =>
    have hlast := mem_reverse.1 (List.mem_of_find?_eq_some found)
    exact toULong_of_lt (sound.number_room hlast)

theorem resume_bounds (sound : Sound site l) {r : ZCloseRecord} (hr : r ∈ l.rows)
    (cash : r.closeType = .cashClose) : resume r ≠ 0 ∧ resume r ≤ l.top + 1 := by
  obtain ⟨x, hx, -, type, -, from_, to_⟩ := sound.row hr
  obtain ⟨-, bounds, first⟩ := sound.kept x (mem_of_mem_drop hx)
  have top := sound.top_room
  have to_le := bounds.to_le
  rw [resume, from_, to_]
  split_ifs with some
  · rw [toULong_of_lt (by omega)]
    omega
  · exact ⟨first (type ▸ cash), bounds.from_le⟩

end Sound

theorem mem_firstNumbers {rows : List ZCloseRecord} {cimCashs : List CimCash} {number : Nat}
    {first : CimCash × Nat} (hfirst : first ∈ firstNumbers rows cimCashs number) :
    first.1 ∈ cimCashs ∧
      (first.2 = number ∨ ∃ r ∈ rows, r.closeType = .cashClose ∧ first.2 = resume r) := by
  induction cimCashs generalizing number with
  | nil => cases hfirst
  | cons cimCash cimCashs ih =>
    have here : ((lastRow rows (isCloseOfCash cimCash.cimCashId)).map resume).getD number =
        number ∨ ∃ r ∈ rows, r.closeType = .cashClose ∧
          ((lastRow rows (isCloseOfCash cimCash.cimCashId)).map resume).getD number = resume r := by
      cases found : lastRow rows (isCloseOfCash cimCash.cimCashId) with
      | none => exact .inl rfl
      | some r =>
        obtain ⟨hr, test⟩ := lastRow_mem found
        have parts : r.cimCashId = cimCash.cimCashId ∧ r.closeType = .cashClose :=
          of_decide_eq_true test
        exact .inr ⟨r, hr, parts.2, rfl⟩
    rw [firstNumbers] at hfirst
    rcases mem_cons.1 hfirst with rfl | hfirst
    · exact ⟨mem_cons_self .., here⟩
    · obtain ⟨mem, value⟩ := ih hfirst
      refine ⟨mem_cons_of_mem _ mem, ?_⟩
      rcases value with same | other
      · rw [same]
        exact here
      · exact .inr other

theorem firstNumbers_cashs (rows : List ZCloseRecord) (cimCashs : List CimCash) (number : Nat) :
    (firstNumbers rows cimCashs number).map Prod.fst = cimCashs := by
  induction cimCashs generalizing number with
  | nil => rfl
  | cons cimCash cimCashs ih => exact congrArg (cimCash :: ·) (ih _)

/-! ## The moves keep a ledger sound -/

namespace Sound

variable {l} {site : CloseSite}

theorem top_deposit (l : Ledger) (d : Deposit) (dropped : Nat) :
    (l.deposit d dropped).top = d.number := ZClose.lastNumber_append d l.deposits 0

variable {d : Deposit} {x closed : ZClose} {droppedCloses : Nat}

theorem top_lt (follows : Follows site l.deposits d) : l.top < d.number := by
  by_cases empty : l.deposits = []
  · rw [top, empty]
    exact follows.positive
  · obtain ⟨d', hd', same⟩ := ZClose.lastNumber_mem empty 0
    rw [top, same]
    exact follows.after d' hd'

theorem spans_take (follows : Follows site l.deposits d) (dropped : Nat) (spans : l.Spans x) :
    (l.deposit d dropped).Spans (x.take d) := by
  have above := top_lt follows
  have from_le := spans.from_le
  refine ⟨⟨?_, ?_, fun _ => ?_⟩, fun zero => ?_, fun _ d' hd' _ => ?_⟩
  · rw [ZClose.take_fromDepositNumber, top_deposit]
    split_ifs <;> omega
  · rw [ZClose.take_toDepositNumber, top_deposit]
  · rw [ZClose.take_fromDepositNumber, ZClose.take_toDepositNumber]
    split_ifs with none
    · exact ⟨by omega, Nat.le_refl _⟩
    · exact ⟨none, by omega⟩
  · rw [ZClose.take_toDepositNumber] at zero
    omega
  · rw [ZClose.take_toDepositNumber]
    rcases mem_append.1 hd' with hd' | hd'
    · exact Nat.le_of_lt (follows.after d' hd')
    · rw [mem_singleton.1 hd']

theorem deposit (sound : Sound site l) {dropped : Nat} (follows : Follows site l.deposits d)
    (newest : dropped ≤ l.deposits.length) : Sound site (l.deposit d dropped) := by
  have each {P : Deposit → Prop} (old : ∀ d' ∈ l.deposits, P d') (new : P d) :
      ∀ d' ∈ l.deposits ++ [d], P d' := fun d' hd' => by
    rcases mem_append.1 hd' with hd' | hd'
    · exact old d' hd'
    · exact mem_singleton.1 hd' ▸ new
  have above := top_lt follows
  refine
    { sound with
      growing := ?_
      bounded := each sound.bounded ⟨follows.positive, follows.room⟩
      filled := each sound.filled follows.filled
      cashs := each sound.cashs follows.cash
      dropped_le := ?_
      newest := fun _ => ?_
      ofDay := ?_
      ofCash := ?_
      cimCashs := ?_
      day := spans_take follows dropped sound.day
      cash := ?_
      kept := fun x hx => ?_
      zNumbers := ?_
      room := ?_ }
  · show (l.deposits ++ [d]).Pairwise _
    rw [pairwise_append]
    exact ⟨sound.growing, pairwise_singleton _ _,
      fun d' hd' y hy => mem_singleton.1 hy ▸ follows.after d' hd'⟩
  · show dropped ≤ (l.deposits ++ [d]).length
    rw [length_append]
    omega
  · show dropped < (l.deposits ++ [d]).length
    rw [length_append, length_singleton]
    omega
  · exact (ZClose.take_closeType _ _).trans sound.ofDay
  · intro x hx
    obtain ⟨y, hy, rfl⟩ := mem_map.1 hx
    obtain ⟨type, first⟩ := sound.ofCash y hy
    rw [ZClose.take_closeType, ZClose.take_fromDepositNumber, if_neg first]
    exact ⟨type, first⟩
  · rw [← sound.cimCashs]
    show (l.cashCloses.map (·.take d)).map (·.cimCash) = _
    rw [map_map]
    exact map_congr_left fun x _ => ZClose.take_cimCash x d
  · intro x hx
    obtain ⟨y, hy, rfl⟩ := mem_map.1 hx
    exact spans_take follows dropped (sound.cash y hy)
  · obtain ⟨keeps, bounds, first⟩ := sound.kept x hx
    have from_le := bounds.from_le
    have to_le := bounds.to_le
    refine ⟨keeps, ⟨?_, ?_, bounds.forward⟩, first⟩
    · rw [top_deposit]
      omega
    · rw [top_deposit]
      omega
  · show NumbersBelow .endOfDay l.retainedCloses (l.day.take d).number
    rw [ZClose.take_number]
    exact sound.zNumbers
  · show (l.day.take d).number < ulongSize ∧ _
    rw [ZClose.take_number]
    exact sound.room

theorem kept_closedAs (same : x.ClosedAs closed) (keeps : site.Keeps x) (bounds : Bounds l.top x)
    (first : x.closeType = .cashClose → x.fromDepositNumber ≠ 0) :
    site.Keeps closed ∧ Bounds l.top closed ∧
      (closed.closeType = .cashClose → closed.fromDepositNumber ≠ 0) := by
  obtain ⟨type, cash, from_, to_, -, -, -⟩ := same
  rw [CloseSite.Keeps, type, cash, from_]
  refine ⟨keeps, ⟨?_, ?_, ?_⟩, first⟩
  · exact from_ ▸ bounds.from_le
  · exact to_ ▸ bounds.to_le
  · rw [from_, to_]
    exact bounds.forward

theorem retainedCloses_append (l : Ledger) (closed : ZClose)
    (forgets : l.droppedCloses ≤ droppedCloses) :
    ((l.closes ++ [closed]).drop droppedCloses).Sublist (l.retainedCloses ++ [closed]) := by
  rw [drop_append]
  exact ((drop_suffix_drop_left l.closes forgets).sublist).append (drop_sublist _ _)

theorem nextCashClose_fields (room : closed.toDepositNumber + 1 < ulongSize) (now : Nat) :
    (nextCashClose closed now).fromDepositNumber =
        (if closed.toDepositNumber = 0 then closed.fromDepositNumber
          else closed.toDepositNumber + 1) ∧
      (nextCashClose closed now).toDepositNumber = 0 ∧
      (nextCashClose closed now).cimCash = closed.cimCash ∧
      (nextCashClose closed now).closeType = .cashClose := by
  refine ⟨?_, rfl, rfl, rfl⟩
  rw [nextCashClose, toULong_of_lt room]

theorem closeCash (sound : Sound site l) {before rest : List ZClose} {now : Nat}
    (current : l.cashCloses = before ++ x :: rest) (same : x.ClosedAs closed)
    (number : closed.number = l.lastCashCloseNumber + 1)
    (room : l.lastCashCloseNumber + 1 < ulongSize) (forgets : l.droppedCloses ≤ droppedCloses) :
    Sound site (l.closeCash before rest closed now droppedCloses) := by
  have hx : x ∈ l.cashCloses := by
    rw [current]
    simp
  obtain ⟨ofCash, first⟩ := sound.ofCash x hx
  have spans := sound.cash x hx
  have top := sound.top_room
  have to_le := spans.to_le
  obtain ⟨from', to', cash', type'⟩ := nextCashClose_fields
    (by rw [same.toDepositNumber]; omega) now
  rw [same.fromDepositNumber, same.toDepositNumber] at from'
  rw [same.cimCash] at cash'
  have others : ∀ y ∈ before ++ rest, y ∈ l.cashCloses := fun y hy => by
    rw [current]
    rcases mem_append.1 hy with hy | hy
    · exact mem_append_left _ hy
    · exact mem_append_right _ (mem_cons_of_mem x hy)
  have each {P : ZClose → Prop} (old : ∀ y ∈ l.cashCloses, P y)
      (new : P (nextCashClose closed now)) :
      ∀ y ∈ before ++ nextCashClose closed now :: rest, P y := fun y hy => by
    rcases mem_append.1 hy with hy | hy
    · exact old y (others y (mem_append_left _ hy))
    · rcases mem_cons.1 hy with rfl | hy
      · exact new
      · exact old y (others y (mem_append_right _ hy))
  have keeps : site.Keeps x := by
    have mem := mem_map_of_mem (f := ZClose.cimCash) hx
    rw [sound.cimCashs] at mem
    obtain ⟨cash, hcash, own⟩ := mem_map.1 mem
    exact .inr ⟨ofCash, cash, hcash, own.symm⟩
  have sub := retainedCloses_append l closed forgets
  have closedType : closed.closeType = .cashClose := same.closeType.trans ofCash
  refine
    { sound with
      ofCash := each sound.ofCash ⟨type', ?_⟩
      cimCashs := ?_
      day := sound.day.congr rfl rfl
      cash := each (fun y hy => (sound.cash y hy).congr rfl rfl) ⟨⟨?_, ?_, ?_⟩, ?_, ?_⟩
      kept := fun y hy => ?_
      zNumbers := ?_
      cashNumbers := ?_
      room := ⟨sound.room.1, room⟩ }
  · rw [from']
    split_ifs with none
    · exact first
    · exact Nat.succ_ne_zero _
  · show (before ++ nextCashClose closed now :: rest).map (·.cimCash) = _
    rw [← sound.cimCashs, current, map_append, map_append, map_cons, map_cons, cash']
  · rw [from']
    split_ifs
    · exact spans.from_le
    · exact Nat.succ_le_succ to_le
  · rw [to']
    exact Nat.zero_le _
  · exact fun some => absurd to' some
  · intro _ _ d hd mine
    have mine' : x.Belongs d := by
      rw [ZClose.Belongs, type', cash'] at mine
      rw [ZClose.Belongs, ofCash]
      exact mine
    rw [from']
    split_ifs with none
    · exact spans.pending none first d hd mine'
    · exact Nat.lt_succ_of_le (spans.last none d (mem_of_retained hd) mine')
  · exact fun some => absurd to' some
  · rcases mem_append.1 hy with hy | hy
    · exact sound.kept y hy
    · rw [mem_singleton.1 hy]
      exact kept_closedAs same keeps spans.toBounds fun _ => first
  · refine (sound.zNumbers.append _ (x := closed) (fun type => ?_) (Nat.le_refl _)).sublist sub
    rw [closedType] at type
    cases type
  · exact (sound.cashNumbers.append (l.lastCashCloseNumber + 1 + 1) (x := closed)
      (fun _ => by omega) (by omega)).sublist sub

theorem closeDay (sound : Sound site l) {day : ZClose} (same : l.day.ClosedAs closed)
    (number : closed.number = l.day.number) (fresh : ZClose.new.ClosedAs day)
    (above : l.day.number < day.number) (room : day.number < ulongSize)
    (forgets : l.droppedCloses ≤ droppedCloses) :
    Sound site (l.closeDay closed day droppedCloses) := by
  have sub := retainedCloses_append l closed forgets
  have from' : day.fromDepositNumber = 0 := fresh.fromDepositNumber
  have to' : day.toDepositNumber = 0 := fresh.toDepositNumber
  have closedType : closed.closeType = .endOfDay := same.closeType.trans sound.ofDay
  refine
    { sound with
      ofDay := fresh.closeType
      day := ⟨⟨?_, ?_, fun some => absurd to' some⟩, fun _ some => absurd from' some,
        fun some => absurd to' some⟩
      cash := fun y hy => (sound.cash y hy).congr rfl rfl
      kept := fun y hy => ?_
      zNumbers := ?_
      cashNumbers := ?_
      room := ⟨room, sound.room.2⟩ }
  · show day.fromDepositNumber ≤ _
    rw [from']
    exact Nat.zero_le _
  · show day.toDepositNumber ≤ _
    rw [to']
    exact Nat.zero_le _
  · rcases mem_append.1 hy with hy | hy
    · exact sound.kept y hy
    · rw [mem_singleton.1 hy]
      refine kept_closedAs same (.inl sound.ofDay) sound.day.toBounds fun type => ?_
      rw [sound.ofDay] at type
      cases type
  · exact (sound.zNumbers.append day.number (x := closed) (fun _ => by omega)
      (by omega)).sublist sub
  · refine (sound.cashNumbers.append _ (x := closed) (fun type => ?_) (Nat.le_refl _)).sublist sub
    rw [closedType] at type
    cases type

theorem firstDay_fields (sound : Sound site l) (registry : Registry) (nextZNumber : Nat) :
    (l.firstDay registry nextZNumber).closeType = .endOfDay ∧
      (l.firstDay registry nextZNumber).toDepositNumber = 0 ∧
      (l.firstDay registry nextZNumber).rejectedQty = 0 ∧
      (l.firstDay registry nextZNumber).fromDepositNumber =
        ((lastRow l.rows isZCloseWithDeposits).map (·.toDepositNumber)).getD 0 + 1 := by
  refine ⟨rfl, rfl, rfl, ?_⟩
  unfold firstDay
  cases found : lastRow l.rows isZCloseWithDeposits with
  | none => rfl
  | some r =>
    obtain ⟨hr, test⟩ := lastRow_mem found
    have parts : r.fromDepositNumber > 0 ∧ r.toDepositNumber > 0 ∧ r.closeType = .endOfDay :=
      of_decide_eq_true test
    obtain ⟨x, hx, -, -, -, -, to_⟩ := sound.row hr
    have to_le := (sound.kept x (mem_of_mem_drop hx)).2.1.to_le
    have top := sound.top_room
    have value : (getZCloseFromRecordSet registry r).toDepositNumber = r.toDepositNumber := rfl
    show (if (getZCloseFromRecordSet registry r).toDepositNumber > 0 then
      toULong ((getZCloseFromRecordSet registry r).toDepositNumber + 1) else 1) = _
    rw [value, if_pos parts.2.1, toULong_of_lt (by omega)]
    rfl

theorem firstDay_number (sound : Sound site l) (registry : Registry) {nextZNumber : Nat}
    (room : nextZNumber < ulongSize) :
    ((l.retainedCloses.reverse.find? fun x => x.closeType = .endOfDay).map (·.number)).getD 0 <
        (l.firstDay registry nextZNumber).number ∧
      (l.firstDay registry nextZNumber).number < ulongSize := by
  have last := sound.lastRow_number .endOfDay
  have below : ((l.retainedCloses.reverse.find? fun x =>
      x.closeType = .endOfDay).map (·.number)).getD 0 + 1 < ulongSize := by
    cases found : l.retainedCloses.reverse.find? fun x => decide (x.closeType = .endOfDay) with
    | none => show 1 < ulongSize; decide
    | some x =>
      have hx := mem_reverse.1 (List.mem_of_find?_eq_some found)
      have type : x.closeType = .endOfDay := by simpa using List.find?_some found
      have := sound.zNumbers.below x hx type
      have := sound.room.1
      show x.number + 1 < ulongSize
      omega
  have number : (l.firstDay registry nextZNumber).number =
      toULong ((if nextZNumber > ((lastRow l.rows isZClose).map (·.number)).getD 0
        then nextZNumber - 1 else ((lastRow l.rows isZClose).map (·.number)).getD 0) + 1) := rfl
  have same : ((lastRow l.rows isZClose).map (·.number)).getD 0 = _ := last
  rw [number, same]
  split_ifs
  · rw [toULong_of_lt (by omega)]
    omega
  · rw [toULong_of_lt below]
    omega

theorem firstDay_le (sound : Sound site l) (registry : Registry) (nextZNumber : Nat) :
    (l.firstDay registry nextZNumber).fromDepositNumber ≤ l.top + 1 := by
  obtain ⟨-, -, -, from_⟩ := sound.firstDay_fields registry nextZNumber
  rw [from_]
  cases found : lastRow l.rows isZCloseWithDeposits with
  | none => exact Nat.succ_le_succ (Nat.zero_le _)
  | some r =>
    obtain ⟨x, hx, -, -, -, -, to_⟩ := sound.row (lastRow_mem found).1
    have to_le := (sound.kept x (mem_of_mem_drop hx)).2.1.to_le
    rw [← to_] at to_le
    exact Nat.succ_le_succ to_le

theorem firstNumber_bounds (sound : Sound site l) {head : CimCash × Nat}
    (hhead : head ∈ firstNumbers l.rows site.cimCashs 1) :
    head.1 ∈ site.cimCashs ∧ head.2 ≠ 0 ∧ head.2 ≤ l.top + 1 := by
  obtain ⟨mem, value⟩ := mem_firstNumbers hhead
  refine ⟨mem, ?_⟩
  rcases value with one | ⟨r, hr, ofCash, same⟩
  · rw [one]
    exact ⟨Nat.one_ne_zero, Nat.succ_le_succ (Nat.zero_le _)⟩
  · rw [same]
    exact sound.resume_bounds hr ofCash

theorem restart_day (sound : Sound site l) (nextZNumber : Nat) (first : List ZClose) :
    let day := (l.restart site.registry nextZNumber first).day
    day.closeType = .endOfDay ∧ day.number = (l.firstDay site.registry nextZNumber).number ∧
      day.fromDepositNumber =
        ((lastRow l.rows isZCloseWithDeposits).map (·.toDepositNumber)).getD 0 + 1 ∧
      day.rejectedQty = 0 ∧ l.Spans day := by
  intro day
  obtain ⟨dayType, dayTo, dayRejected, dayFrom⟩ := sound.firstDay_fields site.registry nextZNumber
  obtain ⟨type, -, number, from_, rejected, spans⟩ := sound.replayed (.inl dayType)
    (dayFrom ▸ Nat.succ_ne_zero _) (sound.firstDay_le site.registry nextZNumber) dayTo
  exact ⟨type.trans dayType, number, from_.trans dayFrom, rejected.trans dayRejected, spans⟩

theorem restart_cash (sound : Sound site l) (nextZNumber : Nat) {first : List ZClose}
    (loaded : List.Forall₂ (fun first close => ∃ openTime,
      close = opened first.1 first.2 openTime) (firstNumbers l.rows site.cimCashs 1) first)
    (hx : x ∈ (l.restart site.registry nextZNumber first).cashCloses) :
    ∃ head ∈ firstNumbers l.rows site.cimCashs 1, x.closeType = .cashClose ∧
      x.cimCash = some head.1 ∧ x.fromDepositNumber = head.2 ∧ x.fromDepositNumber ≠ 0 ∧
      x.rejectedQty = 0 ∧ l.Spans x := by
  obtain ⟨close, hclose, rfl⟩ := mem_map.1 hx
  obtain ⟨head, hhead, openTime, rfl⟩ := forall₂_right loaded hclose
  obtain ⟨mem, bounds⟩ := sound.firstNumber_bounds hhead
  obtain ⟨type, cash, -, from_, rejected, spans⟩ := @replayed _ _ sound
    (opened head.1 head.2 openTime) (.inr ⟨rfl, head.1, mem, rfl⟩) bounds.1 bounds.2 rfl
  exact ⟨head, hhead, type, cash, from_, from_ ▸ bounds.1, rejected, spans⟩

theorem restart (sound : Sound site l) {nextZNumber : Nat} {first : List ZClose}
    (room : nextZNumber < ulongSize)
    (loaded : List.Forall₂ (fun first close => ∃ openTime,
      close = opened first.1 first.2 openTime) (firstNumbers l.rows site.cimCashs 1) first) :
    Sound site (l.restart site.registry nextZNumber first) := by
  obtain ⟨above, dayRoom⟩ := sound.firstDay_number site.registry room
  obtain ⟨type, number, -, -, spans⟩ := sound.restart_day nextZNumber first
  refine
    { sound with
      ofDay := type
      ofCash := fun y hy => ?_
      cimCashs := ?_
      day := spans.congr rfl rfl
      cash := fun y hy => ?_
      zNumbers := ?_
      cashNumbers := ?_
      room := ⟨?_, ?_⟩ }
  · obtain ⟨head, -, type', -, -, some, -⟩ := sound.restart_cash nextZNumber loaded hy
    exact ⟨type', some⟩
  · have same : ((firstNumbers l.rows site.cimCashs 1).map Prod.fst).map some =
        (l.restart site.registry nextZNumber first).cashCloses.map (·.cimCash) := by
      show _ = (first.map fun close => l.retained.foldl _ close).map (·.cimCash)
      rw [map_map, map_map, ← List.forall₂_eq_eq_eq, List.forall₂_map_left_iff,
        List.forall₂_map_right_iff]
      refine loaded.imp fun head close here => ?_
      obtain ⟨openTime, rfl⟩ := here
      exact (ZClose.foldl_replayDeposit_keeps site.registry l.retained
        (opened head.1 head.2 openTime)).2.symm
    rw [firstNumbers_cashs] at same
    rw [same]
  · obtain ⟨head, -, -, -, -, -, -, spans'⟩ := sound.restart_cash nextZNumber loaded hy
    exact spans'.congr rfl rfl
  · show NumbersBelow .endOfDay l.retainedCloses _
    refine sound.zNumbers.restart.mono ?_
    rw [number]
    exact above
  · show NumbersBelow .cashClose l.retainedCloses (((lastRow l.rows isCashClose).map _).getD 0 + 1)
    rw [show ((lastRow l.rows isCashClose).map (·.number)).getD 0 = _ from
      sound.lastRow_number .cashClose]
    exact sound.cashNumbers.restart
  · exact lt_of_eq_of_lt number dayRoom
  · show ((lastRow l.rows isCashClose).map (·.number)).getD 0 < ulongSize
    cases found : lastRow l.rows isCashClose with
    | none => exact Nat.lt_trans Nat.zero_lt_one (by decide)
    | some r =>
      obtain ⟨x, hx, -, -, same, -⟩ := sound.row (lastRow_mem found).1
      exact lt_of_eq_of_lt same (sound.number_room hx)

end Sound

/-- The ledger of an empty site; the first boot is a restart of it. -/
def start (site : CloseSite) : Ledger where
  deposits := []
  dropped := 0
  closes := []
  droppedCloses := 0
  day := .new
  cashCloses := site.cimCashs.map fun cash => opened cash 1 0
  lastCashCloseNumber := 0

theorem sound_start (site : CloseSite) : Sound site (start site) where
  growing := .nil
  bounded := by simp [start]
  filled := by simp [start]
  cashs := by simp [start]
  dropped_le := Nat.le_refl _
  newest none := absurd rfl none
  ofDay := rfl
  ofCash x hx := by
    obtain ⟨cash, -, rfl⟩ := mem_map.1 hx
    exact ⟨rfl, Nat.one_ne_zero⟩
  cimCashs := by
    rw [start, map_map]
    rfl
  day := ⟨⟨Nat.zero_le _, Nat.zero_le _, fun some => absurd rfl some⟩,
    fun _ some => absurd rfl some, fun some => absurd rfl some⟩
  cash x hx := by
    obtain ⟨cash, -, rfl⟩ := mem_map.1 hx
    exact ⟨⟨Nat.le_refl 1, Nat.zero_le _, fun some => absurd rfl some⟩,
      by simp [retained, start], by simp [start]⟩
  kept := by simp [start]
  zNumbers := .nil _ _
  cashNumbers := .nil _ _
  room := ⟨Nat.two_pow_pos 32, Nat.two_pow_pos 32⟩

section moves

variable {l l' : Ledger} {site : CloseSite} {Ready : Ledger → Prop}

theorem Step.sound (step : Step site Ready l l') (sound : Sound site l) : Sound site l' := by
  cases step with
  | deposit follows forgets newest => exact sound.deposit follows newest
  | closeCash current same number room forgets =>
    exact sound.closeCash current same number room forgets
  | closeDay same number fresh above room forgets =>
    exact sound.closeDay same number fresh above room forgets
  | restart ready room loaded => exact sound.restart room loaded

theorem invariant_of_moves (Inv : Ledger → Prop)
    (kept : ∀ {l l' : Ledger}, Step site Ready l l' → Sound site l → Inv l → Inv l')
    (moves : Relation.ReflTransGen (Step site Ready) l l') (sound : Sound site l) (inv : Inv l) :
    Sound site l' ∧ Inv l' := by
  induction moves with
  | refl => exact ⟨sound, inv⟩
  | tail _ step ih => exact ⟨step.sound ih.1, kept step ih.1 ih.2⟩

end moves

end Ledger

end CimArm
