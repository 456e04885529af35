import CimArm.Cim.CloseRanges

/-!
# What a close totals

The details of a close are those of the deposits in its range, in their order: for an
open close they were added as each deposit ended, or from the rows at a restart, and
for deposits that fit their rows this is the same (`FitsRows.rowCalls`).  An open close
therefore equals the one that a restart rebuilds, as far as the deposits it totals are
still stored; the rejected bills it counted are not rebuilt (`rebuilds_of_replayable`).
-/

namespace CimArm

open ZCloseDAO Tiling CloseMachine List

/-! ## Rows of a deposit -/

/-- A deposit whose rows give back what a close takes from it. -/
structure FitsRows (registry : Registry) (d : Deposit) : Prop where
  user : registry.getUserFromCompleteList (DepositRecord.ofDeposit d).userId = d.user
  door : registry.getDoorById (DepositRecord.ofDeposit d).doorId = d.door
  reference : rowReference registry (DepositRecord.ofDeposit d).referenceId = d.cashReference
  details : ∀ detail ∈ d.depositDetails, detail.FitsRecord registry

instance (registry : Registry) (detail : DepositDetail) : Decidable (detail.FitsRecord registry) :=
  decidable_of_iff (registry.getAcceptorSettingsById
      (toShort (idOf (·.acceptorId) detail.acceptorSettings)) = detail.acceptorSettings ∧
    toShort detail.qty = detail.qty ∧ FitsMoney detail.amount ∧
    registry.getCurrencyById (toShort (idOf (·.currencyId) detail.currency)) = detail.currency)
    ⟨fun all => ⟨all.1, all.2.1, all.2.2.1, all.2.2.2⟩, fun all =>
      ⟨all.acceptorSettings, all.qty, all.amount, all.currency⟩⟩

instance (registry : Registry) (d : Deposit) : Decidable (FitsRows registry d) :=
  decidable_of_iff (registry.getUserFromCompleteList (DepositRecord.ofDeposit d).userId = d.user ∧
    registry.getDoorById (DepositRecord.ofDeposit d).doorId = d.door ∧
    rowReference registry (DepositRecord.ofDeposit d).referenceId = d.cashReference ∧
    ∀ detail ∈ d.depositDetails, detail.FitsRecord registry)
    ⟨fun all => ⟨all.1, all.2.1, all.2.2.1, all.2.2.2⟩, fun all =>
      ⟨all.user, all.door, all.reference, all.details⟩⟩

namespace FitsRows

variable {site : CloseSite} {d : Deposit}

theorem cimCash (own : ∃ cash ∈ site.cimCashs, d.cimCash = some cash) :
    site.registry.getCimCashById (DepositRecord.ofDeposit d).cimCashId = d.cimCash := by
  obtain ⟨cash, mem, mine⟩ := own
  rw [site.cimCashId_eq mem mine, site.registered cash mem, mine]

theorem rowCalls (fits : FitsRows site.registry d)
    (own : ∃ cash ∈ site.cimCashs, d.cimCash = some cash) :
    ZClose.rowCalls site.registry d = zCalls d := by
  rw [ZClose.rowCalls, Deposit.detailRecords, map_map, zCalls]
  refine map_congr_left fun detail mem => ?_
  obtain ⟨acceptor, qty, amount, currency⟩ := fits.details detail mem
  show ZCall.ofRecords site.registry (.ofDeposit d) (.ofDetail d.number detail) = _
  rw [ZCall.ofRecords, fits.user, fits.door, cimCash own, fits.reference]
  simp only [DepositDetailRecord.ofDetail, acceptor, qty, currency,
    (decimalToMoney_moneyToDecimal _).2 amount]
  rfl

theorem rowTotal {registry : Registry} {detail : DepositDetail}
    (fits : detail.FitsRecord registry) (number : Nat) :
    CimArm.rowTotal (.ofDetail number detail) = detail.getTotalAmount := by
  simp only [CimArm.rowTotal, DepositDetailRecord.ofDetail, fits.qty,
    (decimalToMoney_moneyToDecimal _).2 fits.amount]
  rfl

/-- The rows add to the close of a cash what the deposit does, where the value type is that of
manual cash. -/
theorem rowCashCalls (fits : FitsRows site.registry d)
    (own : ∃ cash ∈ site.cimCashs, d.cimCash = some cash) :
    ZClose.rowCashCalls site.registry (fun _ => .manualCash) d = cashCalls d := by
  rw [ZClose.rowCashCalls, Deposit.detailRecords, map_map, cashCalls, cimCash own]
  refine map_congr_left fun detail mem => ?_
  obtain ⟨acceptor, qty, amount, currency⟩ := fits.details detail mem
  show CashCall.ofRecord site.registry d.cimCash .manualCash (.ofDetail d.number detail) = _
  rw [CashCall.ofRecord, rowTotal (fits.details detail mem)]
  simp only [DepositDetailRecord.ofDetail, acceptor, qty, currency]
  rfl

end FitsRows

/-! ## The deposits a close totals -/

namespace ZClose

/-- A deposit in the range of a close that is about it. -/
def Covers (x : ZClose) (d : Deposit) : Prop :=
  x.Belongs d ∧ x.fromDepositNumber ≤ d.number ∧ d.number ≤ x.toDepositNumber

instance (x : ZClose) (d : Deposit) : Decidable (x.Covers d) :=
  inferInstanceAs (Decidable (_ ∧ _ ∧ _))

/-- The details and summaries that deposits leave in an empty close. -/
def tally (type : CloseType) (ds : List Deposit) : List ZCloseDetail × List ZCloseSummary :=
  match type with
  | .endOfDay => ((ds.flatMap zCalls).foldl insertZDetail [],
    (ds.flatMap zCalls).foldl addSummary [])
  | .cashClose => ((ds.flatMap cashCalls).foldl insertCashDetail [], [])

/-- What a close totals. -/
def totals (x : ZClose) : List ZCloseDetail × List ZCloseSummary × Int :=
  (x.zCloseDetails, x.cashReferenceSummaries, x.rejectedQty)

theorem Covers.of_closedAs {x closed : ZClose} (same : x.ClosedAs closed) (d : Deposit) :
    closed.Covers d ↔ x.Covers d := by
  rw [Covers, Covers, same.belongs, same.fromDepositNumber, same.toDepositNumber]

end ZClose

namespace Ledger

variable {site : CloseSite} {l : Ledger} {x : ZClose}

/-- The deposits from position `k` on that a close covers. -/
def covered (l : Ledger) (x : ZClose) (k : Nat) : List Deposit :=
  (l.deposits.drop k).filter fun d => x.Covers d

/-- The deposits from a position on lie before the first number of an open close that has
none. -/
structure Window (l : Ledger) (x : ZClose) (k : Nat) : Prop where
  le : k ≤ l.deposits.length
  pending : x.toDepositNumber = 0 → x.fromDepositNumber ≠ 0 →
    ∀ d ∈ l.deposits.drop k, x.Belongs d → d.number < x.fromDepositNumber

/-- A close has the details of the deposits it covers; only dropped ones may be missing. -/
def Details (l : Ledger) (x : ZClose) (k : Nat) : Prop :=
  (x.zCloseDetails, x.cashReferenceSummaries) = ZClose.tally x.closeType (l.covered x k)

/-- An open close totals the deposits it covers. -/
structure Counts (l : Ledger) (x : ZClose) : Prop where
  details : ∃ k ≤ l.dropped, l.Window x k ∧ l.Details x k
  rejected : ∃ k, l.Window x k ∧ x.rejectedQty =
    match x.closeType with
    | .endOfDay => ((l.covered x k).map (·.rejectedQty)).sum
    | .cashClose => 0

variable {l' : Ledger} {k : Nat}

theorem Window.congr (window : l.Window x k) (deposits : l'.deposits = l.deposits) :
    l'.Window x k := by
  obtain ⟨le, pending⟩ := window
  rw [← deposits] at le pending
  exact ⟨le, pending⟩

theorem Counts.congr (counts : l.Counts x) (deposits : l'.deposits = l.deposits)
    (dropped : l'.dropped = l.dropped) : l'.Counts x := by
  obtain ⟨⟨k, early, window, details⟩, j, window', rejected⟩ := counts
  have covered (k : Nat) : l'.covered x k = l.covered x k := by
    rw [Ledger.covered, deposits, Ledger.covered]
  refine ⟨⟨k, dropped ▸ early, window.congr deposits, ?_⟩, j, window'.congr deposits, ?_⟩
  · rw [Details, covered]
    exact details
  · rw [covered]
    exact rejected

theorem covered_empty (sound : Sound site l) (empty : x.toDepositNumber = 0) (k : Nat) :
    l.covered x k = [] := by
  refine filter_eq_nil_iff.2 fun d hd covers => ?_
  obtain ⟨-, -, le⟩ := of_decide_eq_true covers
  have := (sound.bounded d (mem_of_mem_drop hd)).1
  omega

theorem covered_take (sound : Sound site l) (spans : l.Spans x) (window : l.Window x k)
    {d : Deposit} (follows : Follows site l.deposits d) (dropped : Nat) :
    (l.deposit d dropped).covered (x.take d) k =
      l.covered x k ++ if x.Belongs d then [d] else [] := by
  have last : (x.take d).Covers d ↔ x.Belongs d := by
    rw [ZClose.Covers, ZClose.take_belongs, ZClose.take_fromDepositNumber,
      ZClose.take_toDepositNumber]
    have above := Sound.top_lt follows
    have from_le := spans.from_le
    constructor
    · exact fun covers => covers.1
    · intro mine
      refine ⟨mine, ?_, Nat.le_refl _⟩
      split_ifs <;> omega
  have others (d' : Deposit) (hd' : d' ∈ l.deposits.drop k) :
      (x.take d).Covers d' ↔ x.Covers d' := by
    have written := mem_of_mem_drop hd'
    have before := follows.after d' written
    have positive := (sound.bounded d' written).1
    rw [ZClose.Covers, ZClose.Covers, ZClose.take_belongs, ZClose.take_fromDepositNumber,
      ZClose.take_toDepositNumber]
    by_cases empty : x.toDepositNumber = 0
    · by_cases zero : x.fromDepositNumber = 0
      · rw [if_pos zero]
        constructor <;> rintro ⟨-, low, high⟩ <;> omega
      · rw [if_neg zero]
        constructor
        · rintro ⟨mine, low, -⟩
          have := window.pending empty zero d' hd' mine
          omega
        · rintro ⟨-, -, high⟩
          omega
    · obtain ⟨some, -⟩ := spans.forward empty
      rw [if_neg some]
      constructor
      · rintro ⟨mine, low, -⟩
        exact ⟨mine, low, spans.last empty d' written mine⟩
      · rintro ⟨mine, low, -⟩
        exact ⟨mine, low, Nat.le_of_lt before⟩
  show ((l.deposits ++ [d]).drop k).filter _ = _
  rw [drop_append_of_le_length window.le, filter_append, covered]
  refine congrArg₂ (· ++ ·) (filter_congr fun d' hd' => decide_eq_decide.2 (others d' hd')) ?_
  by_cases mine : x.Belongs d
  · rw [if_pos mine, filter_cons_of_pos (by simpa using last.2 mine), filter_nil]
  · rw [if_neg mine, filter_cons_of_neg (by simpa using mt last.1 mine), filter_nil]

theorem tally_take (x : ZClose) (d : Deposit) {ds : List Deposit}
    (details : (x.zCloseDetails, x.cashReferenceSummaries) = ZClose.tally x.closeType ds) :
    ((x.take d).zCloseDetails, (x.take d).cashReferenceSummaries) =
      ZClose.tally (x.take d).closeType (ds ++ if x.Belongs d then [d] else []) := by
  rw [ZClose.take_closeType]
  cases type : x.closeType with
  | endOfDay =>
    have mine : x.Belongs d := .inl type
    rw [type, ZClose.tally, Prod.mk.injEq] at details
    rw [if_pos mine, ZClose.tally, flatMap_append, flatMap_singleton, foldl_append,
      foldl_append, ← details.1, ← details.2, ZClose.take, type]
  | cashClose =>
    rw [type, ZClose.tally, Prod.mk.injEq] at details
    have mine : x.Belongs d ↔ x.cimCash = d.cimCash := by
      rw [ZClose.Belongs, type]
      exact ⟨fun mine => mine.resolve_left CloseType.noConfusion, .inr⟩
    rw [ZClose.tally, ZClose.take, type]
    by_cases same : x.cimCash = d.cimCash
    · rw [if_pos (mine.2 same), if_pos same, flatMap_append, flatMap_singleton,
        foldl_append, ← details.1]
      exact congrArg (Prod.mk _) details.2
    · rw [if_neg (mt mine.1 same), if_neg same, append_nil, ← details.1]
      exact congrArg (Prod.mk _) details.2

/-- All closes total the deposits they cover. -/
structure Counted (l : Ledger) : Prop where
  day : l.Counts l.day
  cash : ∀ x ∈ l.cashCloses, l.Counts x
  stored : ∀ x ∈ l.closes, ∃ k ≤ l.dropped, l.Details x k

/-! ## The moves -/

theorem Counts.fresh (sound : Sound site l) (spans : l.Spans x) (empty : x.toDepositNumber = 0)
    (details : x.zCloseDetails = []) (summaries : x.cashReferenceSummaries = [])
    (rejected : x.rejectedQty = 0) : l.Counts x := by
  have window : l.Window x l.dropped := ⟨sound.dropped_le, spans.pending⟩
  refine ⟨⟨l.dropped, Nat.le_refl _, window, ?_⟩, l.dropped, window, ?_⟩
  · rw [Details, covered_empty sound empty, details, summaries]
    cases x.closeType <;> rfl
  · rw [covered_empty sound empty, rejected]
    cases x.closeType <;> rfl

theorem Details.of_closedAs {closed : ZClose} (same : x.ClosedAs closed) (details : l.Details x k) :
    l.Details closed k := by
  have covered : l.covered closed k = l.covered x k :=
    filter_congr fun d _ => decide_eq_decide.2 (ZClose.Covers.of_closedAs same d)
  rw [Details, covered, same.zCloseDetails, same.cashReferenceSummaries, same.closeType]
  exact details

theorem Counts.take (counts : l.Counts x) (sound : Sound site l) (spans : l.Spans x)
    {d : Deposit} (follows : Follows site l.deposits d) {dropped : Nat}
    (forgets : l.dropped ≤ dropped) : (l.deposit d dropped).Counts (x.take d) := by
  obtain ⟨⟨k, early, window, details⟩, j, window', rejected⟩ := counts
  have still {k : Nat} (window : l.Window x k) : (l.deposit d dropped).Window (x.take d) k := by
    refine ⟨?_, fun empty => ?_⟩
    · show k ≤ (l.deposits ++ [d]).length
      rw [length_append]
      exact Nat.le_add_right_of_le window.le
    · rw [ZClose.take_toDepositNumber] at empty
      have := follows.positive
      omega
  refine ⟨⟨k, Nat.le_trans early forgets, still window, ?_⟩, j, still window', ?_⟩
  · rw [Details, covered_take sound spans window follows dropped]
    exact tally_take x d details
  · rw [covered_take sound spans window' follows dropped, ZClose.take_closeType]
    cases type : x.closeType with
    | endOfDay =>
      have mine : x.Belongs d := .inl type
      rw [type] at rejected
      dsimp only at rejected ⊢
      rw [if_pos mine, map_append, sum_append, ← rejected, ZClose.take, type]
      simp
    | cashClose =>
      rw [type] at rejected
      rw [ZClose.take, type]
      exact rejected

theorem Details.deposit (details : l.Details x k) (le : k ≤ l.deposits.length)
    (bounds : Bounds l.top x) {d : Deposit} (follows : Follows site l.deposits d) (dropped : Nat) :
    (l.deposit d dropped).Details x k := by
  have above := Sound.top_lt follows
  have to_le := bounds.to_le
  have outside : ¬ x.Covers d := fun covers => by
    have := covers.2.2
    omega
  have covered : (l.deposit d dropped).covered x k = l.covered x k := by
    show ((l.deposits ++ [d]).drop k).filter _ = _
    rw [drop_append_of_le_length le, filter_append,
      filter_cons_of_neg (by simpa using outside), filter_nil, append_nil, covered]
  rw [Details, covered]
  exact details

/-- A close that was rebuilt from the retained deposits. -/
structure Rebuilt (l : Ledger) (x : ZClose) : Prop where
  window : l.Window x l.dropped
  details : l.Details x l.dropped
  rejectedQty : x.rejectedQty = 0

theorem Rebuilt.congr (rebuilt : l.Rebuilt x) (deposits : l'.deposits = l.deposits)
    (dropped : l'.dropped = l.dropped) : l'.Rebuilt x := by
  obtain ⟨window, details, rejected⟩ := rebuilt
  rw [← dropped] at window details
  refine ⟨window.congr deposits, ?_, rejected⟩
  rw [Details, covered, deposits]
  exact details

/-- A rebuilt close totals what it covers, and counts no rejected bills: those of no
deposit. -/
theorem Rebuilt.counts (rebuilt : l.Rebuilt x) : l.Counts x := by
  refine ⟨⟨l.dropped, Nat.le_refl _, rebuilt.window, rebuilt.details⟩, l.deposits.length,
    ⟨Nat.le_refl _, fun _ _ d hd => ?_⟩, ?_⟩
  · rw [drop_length] at hd
    cases hd
  · rw [rebuilt.rejectedQty, covered, drop_length]
    cases x.closeType <;> rfl

theorem Rebuilt.replayed (sound : Sound site l)
    (fits : ∀ d ∈ l.deposits, FitsRows site.registry d) {close : ZClose}
    (kept : site.Keeps close) (first : close.fromDepositNumber ≠ 0)
    (empty : close.toDepositNumber = 0) (details : close.zCloseDetails = [])
    (summaries : close.cashReferenceSummaries = []) (rejected : close.rejectedQty = 0)
    (le : close.fromDepositNumber ≤ l.top + 1) :
    l.Rebuilt (l.retained.foldl (ZClose.replayDeposit site.registry) close) := by
  obtain ⟨type, cash, -, from_, rejected', spans⟩ := sound.replayed kept first le empty
  have run := ZClose.foldl_replayDeposit kept first
    (fun d hd => sound.cashs d (Sound.mem_of_retained hd))
    (fun d hd => toULong_of_lt
      (Nat.lt_of_succ_lt (sound.bounded d (Sound.mem_of_retained hd)).2))
  obtain ⟨x, x_eq⟩ : ∃ x, x = l.retained.foldl (ZClose.replayDeposit site.registry) close :=
    ⟨_, rfl⟩
  rw [← x_eq] at type cash from_ rejected' spans run ⊢
  have taken : l.retained.filter (fun d => close.Takes d) = l.covered x l.dropped := by
    refine filter_congr fun d hd => decide_eq_decide.2 ?_
    rw [ZClose.Takes, ZClose.Covers, ZClose.Belongs, ZClose.Belongs, type, cash, from_]
    constructor
    · rintro ⟨low, mine⟩
      have mine' : x.Belongs d := by
        rw [ZClose.Belongs, type, cash]
        exact mine
      have some : x.toDepositNumber ≠ 0 := fun zero => by
        have := spans.pending zero (from_ ▸ first) d hd mine'
        omega
      exact ⟨mine, low, spans.last some d (Sound.mem_of_retained hd) mine'⟩
    · rintro ⟨mine, low, -⟩
      exact ⟨low, mine⟩
  have own (d : Deposit) (hd : d ∈ l.covered x l.dropped) :
      FitsRows site.registry d ∧ ∃ cash ∈ site.cimCashs, d.cimCash = some cash := by
    have written := mem_of_mem_drop (mem_of_mem_filter hd)
    exact ⟨fits d written, sound.cashs d written⟩
  rw [taken] at run
  refine ⟨⟨sound.dropped_le, spans.pending⟩, ?_, rejected'.trans rejected⟩
  rw [Details, type]
  cases closeType : close.closeType with
  | endOfDay =>
    rw [ZClose.foldl_absorb_day site.registry closeType, details, summaries] at run
    have calls : (l.covered x l.dropped).flatMap (ZClose.rowCalls site.registry) =
        (l.covered x l.dropped).flatMap zCalls :=
      flatMap_congr fun d hd => (own d hd).1.rowCalls (own d hd).2
    rw [ZClose.tally, ← calls]
    conv_lhs => rw [run]
  | cashClose =>
    rw [ZClose.foldl_absorb_cash site.registry closeType, details] at run
    have calls : (l.covered x l.dropped).flatMap
        (ZClose.rowCashCalls site.registry fun _ => .manualCash) =
        (l.covered x l.dropped).flatMap cashCalls :=
      flatMap_congr fun d hd => (own d hd).1.rowCashCalls (own d hd).2
    rw [ZClose.tally, ← calls]
    conv_lhs => rw [run]
    rw [summaries]

/-- The deposits of a ledger give back from their rows what the closes take. -/
def FitsRows (site : CloseSite) (l : Ledger) : Prop :=
  ∀ d ∈ l.deposits, CimArm.FitsRows site.registry d

instance (site : CloseSite) (l : Ledger) : Decidable (l.FitsRows site) :=
  inferInstanceAs (Decidable (∀ d ∈ l.deposits, _))

theorem rebuilt_restart (sound : Sound site l) (fits : l.FitsRows site) (nextZNumber : Nat)
    {first : List ZClose}
    (loaded : List.Forall₂ (fun first close => ∃ openTime,
      close = opened first.1 first.2 openTime) (firstNumbers l.rows site.cimCashs 1) first) :
    let l' := l.restart site.registry nextZNumber first
    l'.Rebuilt l'.day ∧ ∀ x ∈ l'.cashCloses, l'.Rebuilt x := by
  obtain ⟨dayType, dayTo, dayRejected, dayFrom⟩ := sound.firstDay_fields site.registry nextZNumber
  have day : l.Rebuilt (l.restart site.registry nextZNumber first).day :=
    .replayed sound fits (.inl dayType) (dayFrom ▸ Nat.succ_ne_zero _) dayTo rfl rfl dayRejected
      (sound.firstDay_le site.registry nextZNumber)
  refine ⟨day.congr rfl rfl, fun x hx => ?_⟩
  obtain ⟨close, hclose, rfl⟩ := mem_map.1 hx
  obtain ⟨head, hhead, openTime, rfl⟩ := forall₂_right loaded hclose
  obtain ⟨mem, some, le⟩ := sound.firstNumber_bounds hhead
  have rebuilt : l.Rebuilt (l.retained.foldl (ZClose.replayDeposit site.registry)
      (opened head.1 head.2 openTime)) :=
    .replayed sound fits (.inr ⟨rfl, head.1, mem, rfl⟩) some rfl rfl rfl rfl le
  exact rebuilt.congr rfl rfl

theorem counted_restart (sound : Sound site l) (fits : l.FitsRows site)
    (stored : ∀ x ∈ l.closes, ∃ k ≤ l.dropped, l.Details x k) (nextZNumber : Nat)
    {first : List ZClose}
    (loaded : List.Forall₂ (fun first close => ∃ openTime,
      close = opened first.1 first.2 openTime) (firstNumbers l.rows site.cimCashs 1) first) :
    (l.restart site.registry nextZNumber first).Counted := by
  obtain ⟨day, cash⟩ := rebuilt_restart sound fits nextZNumber loaded
  exact ⟨day.counts, fun x hx => (cash x hx).counts, stored⟩

theorem Step.counted {l' : Ledger} {Ready : Ledger → Prop} (step : Step site Ready l l')
    (sound : Sound site l) (counted : l.FitsRows site → l.Counted) (fits : l'.FitsRows site) :
    l'.Counted := by
  cases step with
  | @deposit d dropped follows forgets newest =>
    obtain ⟨day, cash, stored⟩ := counted fun d' hd' => fits d' (mem_append_left _ hd')
    refine ⟨day.take sound sound.day follows forgets, fun x hx => ?_, fun x hx => ?_⟩
    · obtain ⟨y, hy, rfl⟩ := mem_map.1 hx
      exact (cash y hy).take sound (sound.cash y hy) follows forgets
    · obtain ⟨k, early, details⟩ := stored x hx
      exact ⟨k, Nat.le_trans early forgets, details.deposit
        (Nat.le_trans early sound.dropped_le) (sound.kept x hx).2.1 follows dropped⟩
  | @closeCash before rest x closed now droppedCloses current same number room forgets =>
    obtain ⟨day, cash, stored⟩ := counted fits
    have sound' := @Ledger.Sound.closeCash _ _ _ _ _ sound _ _ now current same number room forgets
    have hx : x ∈ l.cashCloses := by
      rw [current]
      simp
    have others (y : ZClose) (hy : y ∈ before ++ rest) : y ∈ l.cashCloses := by
      rw [current]
      rcases mem_append.1 hy with hy | hy
      · exact mem_append_left _ hy
      · exact mem_append_right _ (mem_cons_of_mem x hy)
    have next : (l.closeCash before rest closed now droppedCloses).Counts
        (CloseMachine.nextCashClose closed now) :=
      .fresh sound' (sound'.cash _ (mem_append_right _ (mem_cons_self ..))) rfl rfl rfl rfl
    refine ⟨day.congr rfl rfl, fun y hy => ?_, fun y hy => ?_⟩
    · rcases mem_append.1 hy with hy | hy
      · exact (cash y (others y (mem_append_left _ hy))).congr rfl rfl
      · rcases mem_cons.1 hy with rfl | hy
        · exact next
        · exact (cash y (others y (mem_append_right _ hy))).congr rfl rfl
    · rcases mem_append.1 hy with hy | hy
      · exact stored y hy
      · obtain ⟨k, early, -, details⟩ := (cash x hx).details
        rw [mem_singleton.1 hy]
        exact ⟨k, early, details.of_closedAs same⟩
  | @closeDay closed next droppedCloses same number fresh above room forgets =>
    obtain ⟨day, cash, stored⟩ := counted fits
    have sound' := sound.closeDay same number fresh above room forgets
    refine ⟨.fresh sound' sound'.day fresh.toDepositNumber fresh.zCloseDetails
      fresh.cashReferenceSummaries fresh.rejectedQty, fun y hy => ?_, fun y hy => ?_⟩
    · exact (cash y hy).congr rfl rfl
    · rcases mem_append.1 hy with hy | hy
      · exact stored y hy
      · obtain ⟨k, early, -, details⟩ := day.details
        rw [mem_singleton.1 hy]
        exact ⟨k, early, details.of_closedAs same⟩
  | @restart nextZNumber first ready room loaded =>
    obtain ⟨day, cash, stored⟩ := counted fits
    exact counted_restart sound fits stored nextZNumber loaded

/-! ## The open closes and the rebuilt ones -/

/-- Which retained deposits an open close covers: those of its scope behind the boundary. -/
theorem Tiled.covers_iff {scope : CloseScope} (tiled : l.Tiled scope x) (sound : Sound site l)
    (spans : l.Spans x) (of : scope.Of x) {d : Deposit} (hd : d ∈ l.retained) :
    x.Covers d ↔ scope.Owns d ∧ boundary 1 (scope.ranges l.closes) ≤ d.number := by
  have written := Sound.mem_of_retained hd
  have belongs := CloseScope.belongs_iff of d
  constructor
  · rintro ⟨mine, low, high⟩
    have positive := (sound.bounded d written).1
    obtain ⟨first, -⟩ := spans.forward (by omega)
    have behind := (tiled.resumes first).1
    exact ⟨belongs.1 mine, by omega⟩
  · rintro ⟨owns, behind⟩
    have mem : d.number ∈ scope.marks l.deposits :=
      CloseScope.mem_marks.2 ⟨d, written, owns, rfl⟩
    have mine := belongs.2 owns
    have first : x.fromDepositNumber ≠ 0 := fun zero => by
      have := tiled.fresh zero d.number mem
      omega
    have low := (tiled.resumes first).2 d.number mem behind
    have some : x.toDepositNumber ≠ 0 := fun zero => by
      have := spans.pending zero first d hd mine
      omega
    exact ⟨mine, low, spans.last some d written mine⟩

/-- Where the deposits that a close covers are all retained, it does not matter how many of the
dropped ones are looked at. -/
theorem covered_retained (sound : Sound site l)
    (still : ∀ d ∈ l.deposits, x.Covers d → d ∈ l.retained) (early : k ≤ l.dropped) :
    l.covered x k = l.retained.filter fun d => x.Covers d := by
  have later : (l.deposits.drop k).drop (l.dropped - k) = l.retained := by
    rw [drop_drop, retained]
    congr 1
    omega
  rw [covered, ← take_append_drop (l.dropped - k) (l.deposits.drop k), filter_append, later]
  have gone : ((l.deposits.drop k).take (l.dropped - k)).filter (fun d => x.Covers d) = [] := by
    refine filter_eq_nil_iff.2 fun d hd covers => ?_
    have covers' : x.Covers d := of_decide_eq_true covers
    have written : d ∈ l.deposits := mem_of_mem_drop (mem_of_mem_take hd)
    have here := still d written covers'
    -- the numbers of the dropped deposits are below those of the retained ones
    have growing := (sound.growing.sublist (drop_sublist k _))
    rw [← take_append_drop (l.dropped - k) (l.deposits.drop k), later, pairwise_append] at growing
    exact absurd (growing.2.2 d hd d here) (Nat.lt_irrefl _)
  rw [gone, nil_append]

/-- Two open closes of a scope over the same deposits and closes total the same, where what the
first one covers is retained and had no rejected bills, and the second was rebuilt. -/
theorem totals_eq {x' : ZClose} {scope : CloseScope} (deposits : l'.deposits = l.deposits)
    (dropped : l'.dropped = l.dropped) (closes : l'.closes = l.closes) (sound : Sound site l)
    (sound' : Sound site l') (tiled : l.Tiled scope x) (tiled' : l'.Tiled scope x')
    (spans : l.Spans x) (spans' : l'.Spans x') (of : scope.Of x) (of' : scope.Of x')
    (counts : l.Counts x) (rebuilt : l'.Rebuilt x')
    (still : ∀ d ∈ l.deposits, x.Covers d → d ∈ l.retained)
    (accepted : x.closeType = .endOfDay → ∀ d ∈ l.deposits, x.Covers d → d.rejectedQty = 0) :
    x.totals = x'.totals := by
  have retained : l'.retained = l.retained := by
    rw [Ledger.retained, deposits, dropped, Ledger.retained]
  have same (d : Deposit) (hd : d ∈ l.retained) : x.Covers d ↔ x'.Covers d := by
    rw [tiled.covers_iff sound spans of hd,
      tiled'.covers_iff sound' spans' of' (by rw [retained]; exact hd), closes]
  have type : x'.closeType = x.closeType := by
    cases scope with
    | day => exact of'.trans of.symm
    | cash cimCash => exact of'.1.trans of.1.symm
  obtain ⟨⟨k, early, -, details⟩, j, -, rejected⟩ := counts
  obtain ⟨-, details', rejected'⟩ := rebuilt
  have covered : l'.covered x' l'.dropped = l.covered x k := by
    rw [covered_retained sound still early]
    show l'.retained.filter _ = _
    rw [retained]
    exact filter_congr fun d hd => decide_eq_decide.2 (same d hd).symm
  rw [Details, covered, type, ← details] at details'
  have none : x.rejectedQty = 0 := by
    rw [rejected]
    cases day : x.closeType with
    | endOfDay =>
      refine sum_eq_zero fun n hn => ?_
      obtain ⟨d, hd, rfl⟩ := mem_map.1 hn
      obtain ⟨written, covers⟩ := mem_filter.1 hd
      exact accepted day d (mem_of_mem_drop written) (of_decide_eq_true covers)
    | cashClose => rfl
  rw [ZClose.totals, ZClose.totals, none, rejected', ← (Prod.mk.inj details').1,
    ← (Prod.mk.inj details').2]

theorem counted_start (site : CloseSite) : (start site).Counted := by
  have sound := sound_start site
  refine ⟨.fresh sound sound.day rfl rfl rfl rfl, fun x hx => ?_, fun x hx => (nomatch hx)⟩
  have spans := sound.cash x hx
  obtain ⟨cash, -, rfl⟩ := mem_map.1 hx
  exact .fresh sound spans rfl rfl rfl rfl

end Ledger

/-! ## What a restart shows -/

theorem map_eq_of_keys {α β κ : Type} {key : α → κ} {value : α → β} {xs ys : List α}
    (keys : xs.map key = ys.map key)
    (same : ∀ x ∈ xs, ∀ y ∈ ys, key x = key y → value x = value y) :
    xs.map (fun x => (key x, value x)) = ys.map fun y => (key y, value y) := by
  induction xs generalizing ys with
  | nil =>
    cases ys with
    | nil => rfl
    | cons y ys => cases keys
  | cons x xs ih =>
    cases ys with
    | nil => cases keys
    | cons y ys =>
      obtain ⟨head, tail⟩ := List.cons.inj keys
      have first : value x = value y := same x (mem_cons_self ..) y (mem_cons_self ..) head
      have rest := ih tail fun x hx y hy =>
        same x (mem_cons_of_mem _ hx) y (mem_cons_of_mem _ hy)
      rw [map_cons, map_cons, head, first, rest]

namespace CloseHistory

/-- The open closes total the same, cash by cash. -/
structure Rebuilds (m m' : ZCloseManager) : Prop where
  day : m.currentZClose.totals = m'.currentZClose.totals
  cash : m.currentCashCloses.map (fun x => (x.cimCash, x.totals)) =
    m'.currentCashCloses.map fun x => (x.cimCash, x.totals)

/-- A restart finds what it needs, the rows of the deposits give them back, those of the open
closes are still stored, and the day had no rejected bills. -/
structure Replayable (site : CloseSite) (h : CloseHistory) : Prop where
  resumable : h.ledger.Resumable site
  fits : h.ledger.FitsRows site
  stored : ∀ x ∈ h.machine.manager.currentZClose :: h.machine.manager.currentCashCloses,
    ∀ d ∈ h.deposits, x.Covers d → d ∈ h.retained
  accepted : ∀ d ∈ h.deposits, h.machine.manager.currentZClose.Covers d → d.rejectedQty = 0

instance (site : CloseSite) (h : CloseHistory) : Decidable (Replayable site h) :=
  decidable_of_iff (h.ledger.Resumable site ∧ h.ledger.FitsRows site ∧
    (∀ x ∈ h.machine.manager.currentZClose :: h.machine.manager.currentCashCloses,
      ∀ d ∈ h.deposits, x.Covers d → d ∈ h.retained) ∧
    ∀ d ∈ h.deposits, h.machine.manager.currentZClose.Covers d → d.rejectedQty = 0)
    ⟨fun all => ⟨all.1, all.2.1, all.2.2.1, all.2.2.2⟩, fun all =>
      ⟨all.resumable, all.fits, all.stored, all.accepted⟩⟩

/-- Runs that keep the ranges also keep the totals. -/
structure Totalling (site : CloseSite) (h : CloseHistory) : Prop where
  running : Running site h
  ranged : h.ledger.Ranged site
  counted : h.ledger.FitsRows site → h.ledger.Counted

variable {site : CloseSite} {h : CloseHistory}

theorem Totalling.step (totalling : Totalling site h) {op : CloseOp} (closes : h.Closes site op) :
    Totalling site (h.step site op) := by
  obtain ⟨running, ranged, counted⟩ := totalling
  obtain ⟨running', ranged'⟩ := ranged_step ⟨running, ranged⟩ closes
  obtain ⟨-, -, moves⟩ := @Running.step_moves site h (fun _ => True) running op closes.1 fun _ => trivial
  refine ⟨running', ranged', (Ledger.invariant_of_moves
    (fun l => l.FitsRows site → l.Counted) (fun step sound counted fits => ?_) moves
    running.sound counted).2⟩
  exact step.counted sound counted fits

theorem totalling_booted (site : CloseSite) (nextDepositNumber : Nat) {nextZNumber : Nat}
    (now : Nat) (room : nextZNumber < ulongSize) :
    Totalling site (booted site nextDepositNumber nextZNumber now) := by
  refine ⟨running_booted site nextDepositNumber now room,
    ranged_booted site nextDepositNumber now room, fun fits => ?_⟩
  obtain ⟨first, loaded, same⟩ := booted_ledger site nextDepositNumber nextZNumber now
  rw [same] at fits ⊢
  exact Ledger.counted_restart (Ledger.sound_start site) fits (Ledger.counted_start site).stored
    nextZNumber loaded

theorem Totalling.rebuilds (totalling : Totalling site h) (replayable : Replayable site h)
    (nextDepositNumber now : Nat) {nextZNumber : Nat} (room : nextZNumber < ulongSize) :
    Rebuilds h.machine.manager
      (h.step site (.restart nextDepositNumber nextZNumber now)).machine.manager := by
  obtain ⟨running, ranged, counted⟩ := totalling
  obtain ⟨resumable, fits, stored, accepted⟩ := replayable
  have sound := running.sound
  obtain ⟨first, loaded, same⟩ := running.persisted.boot_ledger nextDepositNumber nextZNumber now
    h.ledger ⟨_, _, _, rfl⟩
  have next := sound.restart room loaded
  have ranged' := ranged.restart sound resumable room loaded
  obtain ⟨day, cash⟩ := Ledger.rebuilt_restart sound fits nextZNumber loaded
  have deposits : (h.ledger.restart site.registry nextZNumber first).deposits =
    h.ledger.deposits := rfl
  have dropped : (h.ledger.restart site.registry nextZNumber first).dropped =
    h.ledger.dropped := rfl
  have closes : (h.ledger.restart site.registry nextZNumber first).closes = h.ledger.closes := rfl
  obtain ⟨h', h'_eq⟩ : ∃ h', h' = h.step site (.restart nextDepositNumber nextZNumber now) :=
    ⟨_, rfl⟩
  have same' : h'.ledger = h.ledger.restart site.registry nextZNumber first := h'_eq ▸ same
  rw [← same'] at next ranged' day cash deposits dropped closes
  rw [← h'_eq]
  obtain ⟨countsDay, countsCash, -⟩ := counted fits
  refine ⟨?_, map_eq_of_keys (next.cimCashs ▸ sound.cimCashs) fun x hx y hy same => ?_⟩
  · exact Ledger.totals_eq deposits dropped closes sound next ranged.day ranged'.day
      sound.day next.day sound.ofDay next.ofDay countsDay day
      (stored _ (mem_cons_self ..)) fun _ => accepted
  · obtain ⟨cimCash, mem, own⟩ : ∃ cimCash ∈ site.cimCashs, some cimCash = x.cimCash := by
      have listed : x.cimCash ∈ h.ledger.cashCloses.map (·.cimCash) := mem_map_of_mem hx
      rw [sound.cimCashs] at listed
      exact mem_map.1 listed
    have ofX : (CloseScope.cash cimCash).Of x := ⟨(sound.ofCash x hx).1, own.symm⟩
    have ofY : (CloseScope.cash cimCash).Of y := ⟨(next.ofCash y hy).1, same ▸ own.symm⟩
    exact Ledger.totals_eq deposits dropped closes sound next
      (ranged.cash x hx cimCash ofX.2) (ranged'.cash y hy cimCash ofY.2) (sound.cash x hx)
      (next.cash y hy) ofX ofY (countsCash x hx) (cash y hy)
      (stored x (mem_cons_of_mem _ hx)) fun day => absurd (ofX.1.symm.trans day) (by decide)

/-- In every run that keeps the ranges, a restart rebuilds the open closes of every state in
which it can replay them. -/
theorem rebuilds_of_replayable (site : CloseSite) (nextDepositNumber nextZNumber now : Nat)
    (room : nextZNumber < ulongSize) (ops : List CloseOp)
    (closes : Trace.Always (step site) (Closes site) ops
      (booted site nextDepositNumber nextZNumber now))
    (replayable : Replayable site (Trace.after (step site) ops
      (booted site nextDepositNumber nextZNumber now)))
    (nextDepositNumber' nextZNumber' now' : Nat) (room' : nextZNumber' < ulongSize) :
    Rebuilds
      (Trace.after (step site) ops (booted site nextDepositNumber nextZNumber now)).machine.manager
      (step site (.restart nextDepositNumber' nextZNumber' now') (Trace.after (step site) ops
        (booted site nextDepositNumber nextZNumber now))).machine.manager := by
  have totalling := Trace.Always.after_of_invariant (Totalling site)
    (fun inv ok => Totalling.step inv ok)
    (totalling_booted site nextDepositNumber now room) closes
  exact totalling.rebuilds replayable nextDepositNumber' now' room'

/-- Deposits on both cashes, a Z close and a restart, and one more deposit. -/
def totalledRun : List CloseOp :=
  [.endDeposit (oneNote cashOne) 0 1, .endDeposit (oneNote cashTwo) 7 2,
    .generateZClose (some ⟨1⟩) 3 3 0, .restart 0 0 4, .endDeposit (oneNote cashTwo) 0 5]

theorem rebuilds_of_replayable_run : Rebuilds
    (Trace.after (step twoCashs) totalledRun (booted twoCashs 0 0 0)).machine.manager
    (step twoCashs (.restart 0 0 6) (Trace.after (step twoCashs) totalledRun
      (booted twoCashs 0 0 0))).machine.manager :=
  rebuilds_of_replayable twoCashs 0 0 0 (by decide) totalledRun (by decide +kernel)
    (by decide +kernel) 0 0 6 (by decide)

/-- One deposit with a rejected bill. -/
def rejectedRun : List CloseOp :=
  [.endDeposit { oneNote cashOne with rejectedQty := 1 } 0 1]

/-- The rejected bill is counted once, and not again by the restart. -/
theorem not_rebuilds :
    Trace.Always (step twoCashs) (Fits twoCashs) rejectedRun (booted twoCashs 0 0 0) ∧
      ¬ Rebuilds
        (Trace.after (step twoCashs) rejectedRun (booted twoCashs 0 0 0)).machine.manager
        (step twoCashs (.restart 0 0 2) (Trace.after (step twoCashs) rejectedRun
          (booted twoCashs 0 0 0))).machine.manager := by
  refine ⟨by decide +kernel, fun rebuilds => ?_⟩
  have counted : (Trace.after (step twoCashs) rejectedRun
      (booted twoCashs 0 0 0)).machine.manager.currentZClose.rejectedQty ≠
      (step twoCashs (.restart 0 0 2) (Trace.after (step twoCashs) rejectedRun
        (booted twoCashs 0 0 0))).machine.manager.currentZClose.rejectedQty := by
    decide +kernel
  exact counted (Prod.mk.inj (Prod.mk.inj rebuilds.day).2).2

end CloseHistory

end CimArm
