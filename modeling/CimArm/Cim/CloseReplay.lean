import CimArm.Cim.CloseTables

/-!
# Loading the open closes

The replay goes over the deposits once and hands each row to every close; it is the
same as replaying the deposits for each close alone (`foldl_replayAll`).  A close with
a first number takes the deposits of its cash, or all of them, from that number on
(`foldl_replayDeposit`).
-/

namespace CimArm

open MultiPart CloseMachine List

namespace ZClose

/-- The deposits a close is about: those of its cash, or all. -/
def Belongs (close : ZClose) (d : Deposit) : Prop :=
  close.closeType = .endOfDay ∨ close.cimCash = d.cimCash

instance (close : ZClose) (d : Deposit) : Decidable (close.Belongs d) :=
  inferInstanceAs (Decidable (_ ∨ _))

/-- What the rows of a deposit add to a Z close. -/
def rowCalls (registry : Registry) (d : Deposit) : List ZCall :=
  d.detailRecords.map (.ofRecords registry (.ofDeposit d))

/-- What the rows of a deposit add to the close of its cash, under the value types that
`valueType` gives. -/
def rowCashCalls (registry : Registry) (valueType : DepositDetailRecord → DepositValueType)
    (d : Deposit) : List CashCall :=
  d.detailRecords.map fun line =>
    .ofRecord registry (registry.getCimCashById (DepositRecord.ofDeposit d).cimCashId)
      (valueType line) line

/-- A close after it has taken a stored deposit. -/
def absorb (registry : Registry) (close : ZClose) (d : Deposit) : ZClose :=
  match close.closeType with
  | .endOfDay => { close with
      toDepositNumber := d.number
      zCloseDetails := (rowCalls registry d).foldl insertZDetail close.zCloseDetails
      cashReferenceSummaries :=
        (rowCalls registry d).foldl addSummary close.cashReferenceSummaries }
  | .cashClose => { close with
      toDepositNumber := d.number
      zCloseDetails :=
        (rowCashCalls registry (fun _ => .manualCash) d).foldl insertCashDetail
          close.zCloseDetails }

/-- One deposit of the replay, for one close. -/
def replayDeposit (registry : Registry) (close : ZClose) (d : Deposit) : ZClose :=
  d.detailRecords.foldl (fun close line => close.updateDepDetData registry (.ofDeposit d) line)
    (close.updateDepData (.ofDeposit d))

theorem addZCloseDetails_eq (close : ZClose) (calls : List ZCall) :
    calls.foldl addZCloseDetail close = { close with
      zCloseDetails := calls.foldl insertZDetail close.zCloseDetails
      cashReferenceSummaries := calls.foldl addSummary close.cashReferenceSummaries } := by
  induction calls generalizing close with
  | nil => rfl
  | cons c calls ih => exact ih (close.addZCloseDetail c)

theorem addCashCloseDetails_eq (close : ZClose) (calls : List CashCall) :
    calls.foldl addCashCloseDetail close = { close with
      zCloseDetails := calls.foldl insertCashDetail close.zCloseDetails } := by
  induction calls generalizing close with
  | nil => rfl
  | cons c calls ih => exact ih (close.addCashCloseDetail c)

end ZClose

namespace CloseSite

variable {site : CloseSite}

theorem cimCashId_eq (site : CloseSite) {d : Deposit} {cash : CimCash}
    (hcash : cash ∈ site.cimCashs) (own : d.cimCash = some cash) :
    (DepositRecord.ofDeposit d).cimCashId = cash.cimCashId := by
  have fits := site.fits cash hcash
  show toShort (idOf (·.cimCashId) d.cimCash) = _
  rw [own]
  exact toShort_of_range (by show _ ≤ cash.cimCashId; omega) fits.2

theorem eq_of_cimCashId (site : CloseSite) {a b : CimCash} (ha : a ∈ site.cimCashs)
    (hb : b ∈ site.cimCashs) (same : a.cimCashId = b.cimCashId) : a = b :=
  inj_on_of_nodup_map site.distinct ha hb same

/-- A close that the manager keeps: a Z close, or one of a registered cash. -/
def Keeps (site : CloseSite) (close : ZClose) : Prop :=
  close.closeType = .endOfDay ∨
    close.closeType = .cashClose ∧ ∃ cash ∈ site.cimCashs, close.cimCash = some cash

end CloseSite

namespace ZClose

variable {site : CloseSite} {close : ZClose} {d : Deposit}

theorem cimCashId_iff_belongs (kept : site.Keeps close) (cash : close.closeType = .cashClose)
    (own : ∃ cash ∈ site.cimCashs, d.cimCash = some cash) :
    (DepositRecord.ofDeposit d).cimCashId = idOf (·.cimCashId) close.cimCash ↔
      close.Belongs d := by
  obtain ⟨mine, hmine, hd⟩ := own
  rcases kept with day | ⟨-, other, hother, hclose⟩
  · rw [cash] at day
    cases day
  · rw [site.cimCashId_eq hmine hd, hclose, Belongs, hclose, hd, cash]
    constructor
    · intro same
      exact .inr (congrArg some (site.eq_of_cimCashId hmine hother same).symm)
    · rintro (day | same)
      · cases day
      · rw [Option.some.inj same]
        rfl

/-- A close takes a deposit that it is about, from its first number on. -/
def Takes (close : ZClose) (d : Deposit) : Prop :=
  close.fromDepositNumber ≤ d.number ∧ close.Belongs d

instance (close : ZClose) (d : Deposit) : Decidable (close.Takes d) :=
  inferInstanceAs (Decidable (_ ∧ _))

theorem updateDepData_eq (kept : site.Keeps close) (first : close.fromDepositNumber ≠ 0)
    (own : ∃ cash ∈ site.cimCashs, d.cimCash = some cash)
    (number : (DepositRecord.ofDeposit d).number = d.number) :
    close.updateDepData (.ofDeposit d) =
      if close.Takes d then { close with toDepositNumber := d.number } else close := by
  have same := cimCashId_iff_belongs (d := d) kept
  simp only [updateDepData, number, if_neg first]
  by_cases early : d.number < close.fromDepositNumber
  · rw [if_pos early, if_neg fun taken => absurd taken.1 (Nat.not_le.2 early)]
  · have late := Nat.not_lt.1 early
    rw [if_neg early]
    cases type : close.closeType with
    | endOfDay =>
      have taken : close.Takes d := ⟨late, .inl type⟩
      rw [if_pos taken]
    | cashClose =>
      dsimp only
      by_cases mine : close.Belongs d
      · have taken : close.Takes d := ⟨late, mine⟩
        rw [if_pos ((same type own).2 mine), if_pos taken]
      · rw [if_neg (mt (same type own).1 mine), if_neg fun taken => mine taken.2]

/-- Add one row of a deposit that the close takes. -/
def addLine (registry : Registry) (d : Deposit) (close : ZClose) (line : DepositDetailRecord) :
    ZClose :=
  match close.closeType with
  | .endOfDay => close.addZCloseDetail (.ofRecords registry (.ofDeposit d) line)
  | .cashClose => close.addCashCloseDetail (.ofRecord registry
      (registry.getCimCashById (DepositRecord.ofDeposit d).cimCashId) .manualCash line)

theorem updateDepDetData_eq (kept : site.Keeps close)
    (own : ∃ cash ∈ site.cimCashs, d.cimCash = some cash)
    (number : (DepositRecord.ofDeposit d).number = d.number) (line : DepositDetailRecord) :
    close.updateDepDetData site.registry (.ofDeposit d) line =
      if close.Takes d then close.addLine site.registry d line else close := by
  have same := cimCashId_iff_belongs (d := d) kept
  have found : idOf (·.cimCashId) (site.registry.getCimCashById
      (DepositRecord.ofDeposit d).cimCashId) = (DepositRecord.ofDeposit d).cimCashId := by
    obtain ⟨cash, hcash, hd⟩ := own
    rw [site.cimCashId_eq hcash hd, site.registered cash hcash]
    rfl
  simp only [updateDepDetData, number, addLine]
  by_cases early : d.number < close.fromDepositNumber
  · rw [if_pos early, if_neg fun taken => absurd taken.1 (Nat.not_le.2 early)]
  · have late := Nat.not_lt.1 early
    rw [if_neg early]
    cases type : close.closeType with
    | endOfDay =>
      have taken : close.Takes d := ⟨late, .inl type⟩
      rw [if_pos taken]
    | cashClose =>
      dsimp only
      rw [found]
      by_cases mine : close.Belongs d
      · have taken : close.Takes d := ⟨late, mine⟩
        rw [if_neg (not_not.2 ((same type own).2 mine)), if_pos taken]
      · rw [if_pos (mt (same type own).1 mine), if_neg fun taken => mine taken.2]

variable (registry : Registry)

theorem addLine_keeps (d : Deposit) (close : ZClose) (line : DepositDetailRecord) :
    (close.addLine registry d line).closeType = close.closeType ∧
      (close.addLine registry d line).fromDepositNumber = close.fromDepositNumber ∧
      (close.addLine registry d line).cimCash = close.cimCash := by
  rw [addLine]
  split <;> exact ⟨rfl, rfl, rfl⟩

theorem foldl_addLine (d : Deposit) (close : ZClose) (lines : List DepositDetailRecord) :
    lines.foldl (addLine registry d) close =
      match close.closeType with
      | .endOfDay =>
        (lines.map (ZCall.ofRecords registry (.ofDeposit d))).foldl addZCloseDetail close
      | .cashClose =>
        (lines.map fun line => CashCall.ofRecord registry (registry.getCimCashById
          (DepositRecord.ofDeposit d).cimCashId) .manualCash line).foldl
            addCashCloseDetail close := by
  induction lines generalizing close with
  | nil => cases close.closeType <;> rfl
  | cons line lines ih =>
    have type := (addLine_keeps registry d close line).1
    rw [foldl_cons, ih, type, addLine]
    cases close.closeType <;> rfl

theorem replayDeposit_eq (kept : site.Keeps close) (first : close.fromDepositNumber ≠ 0)
    (own : ∃ cash ∈ site.cimCashs, d.cimCash = some cash)
    (number : (DepositRecord.ofDeposit d).number = d.number) :
    close.replayDeposit site.registry d =
      if close.Takes d then close.absorb site.registry d else close := by
  have lines (l : List DepositDetailRecord) (close' : ZClose)
      (type : close'.closeType = close.closeType)
      (from_ : close'.fromDepositNumber = close.fromDepositNumber)
      (cash : close'.cimCash = close.cimCash) :
      l.foldl (fun close line => close.updateDepDetData site.registry (.ofDeposit d) line) close' =
        if close.Takes d then l.foldl (addLine site.registry d) close' else close' := by
    have kept' : site.Keeps close' := by
      rw [CloseSite.Keeps, type, cash]
      exact kept
    have takes : close'.Takes d ↔ close.Takes d := by
      rw [Takes, Takes, Belongs, Belongs, type, from_, cash]
    induction l generalizing close' with
    | nil => simp
    | cons line l ih =>
      obtain ⟨type', from', cash'⟩ := addLine_keeps site.registry d close' line
      rw [foldl_cons, updateDepDetData_eq kept' own number]
      by_cases taken : close.Takes d
      · rw [if_pos (takes.2 taken), if_pos taken, foldl_cons]
        have rest := ih _ (type'.trans type) (from'.trans from_) (cash'.trans cash)
          (by rw [CloseSite.Keeps, type', cash']; exact kept')
          (by rw [Takes, Belongs, type', from', cash']; exact takes)
        rw [rest, if_pos taken]
      · rw [if_neg (mt takes.1 taken), if_neg taken, ih close' type from_ cash kept' takes,
          if_neg taken]
  rw [replayDeposit, updateDepData_eq kept first own number]
  by_cases taken : close.Takes d
  · have run := lines d.detailRecords { close with toDepositNumber := d.number } rfl rfl rfl
    rw [if_pos taken, foldl_addLine] at run
    rw [if_pos taken, if_pos taken, run, absorb]
    cases type : close.closeType with
    | endOfDay => exact addZCloseDetails_eq _ _
    | cashClose => exact addCashCloseDetails_eq _ _
  · have run := lines d.detailRecords close rfl rfl rfl
    rw [if_neg taken] at run
    rw [if_neg taken, if_neg taken, run]

theorem absorb_keeps (close : ZClose) (d : Deposit) :
    (close.absorb registry d).closeType = close.closeType ∧
      (close.absorb registry d).fromDepositNumber = close.fromDepositNumber ∧
      (close.absorb registry d).cimCash = close.cimCash := by
  cases type : close.closeType <;> simp [absorb, type]

theorem foldl_replayDeposit {ds : List Deposit} (kept : site.Keeps close)
    (first : close.fromDepositNumber ≠ 0)
    (own : ∀ d ∈ ds, ∃ cash ∈ site.cimCashs, d.cimCash = some cash)
    (number : ∀ d ∈ ds, (DepositRecord.ofDeposit d).number = d.number) :
    ds.foldl (replayDeposit site.registry) close =
      (ds.filter fun d => close.Takes d).foldl (absorb site.registry) close := by
  induction ds generalizing close with
  | nil => rfl
  | cons d ds ih =>
    have here := replayDeposit_eq kept first (own d (mem_cons_self ..))
      (number d (mem_cons_self ..))
    have own' := fun d' hd' => own d' (mem_cons_of_mem d hd')
    have number' := fun d' hd' => number d' (mem_cons_of_mem d hd')
    rw [foldl_cons, here]
    by_cases taken : close.Takes d
    · obtain ⟨type, from_, cash⟩ := absorb_keeps site.registry close d
      have kept' : site.Keeps (close.absorb site.registry d) := by
        rw [CloseSite.Keeps, type, cash]
        exact kept
      have rest := ih kept' (by rw [from_]; exact first) own' number'
      have same : (fun d' => decide ((close.absorb site.registry d).Takes d')) =
          fun d' => decide (close.Takes d') := by
        funext d'
        exact decide_eq_decide.2 (by rw [Takes, Takes, Belongs, Belongs, type, from_, cash])
      rw [if_pos taken, filter_cons_of_pos (by simpa using taken), foldl_cons, rest, same]
    · rw [if_neg taken, filter_cons_of_neg (by simpa using taken), ih kept first own' number']

/-- The last number of a list of deposits, or another one. -/
def lastNumber (ds : List Deposit) (number : Nat) : Nat := (ds.getLast?.map (·.number)).getD number

theorem lastNumber_cons (d : Deposit) (ds : List Deposit) (number : Nat) :
    lastNumber (d :: ds) number = lastNumber ds d.number := by
  cases ds with
  | nil => rfl
  | cons d' ds =>
    rw [lastNumber, lastNumber, List.getLast?_cons_cons,
      List.getLast?_eq_some_getLast (cons_ne_nil d' ds)]
    rfl

theorem lastNumber_append (d : Deposit) (ds : List Deposit) (number : Nat) :
    lastNumber (ds ++ [d]) number = d.number := by
  simp [lastNumber]

theorem lastNumber_mem {ds : List Deposit} (some : ds ≠ []) (number : Nat) :
    ∃ d ∈ ds, lastNumber ds number = d.number := by
  refine ⟨ds.getLast some, getLast_mem some, ?_⟩
  rw [lastNumber, List.getLast?_eq_some_getLast some]
  rfl

theorem le_lastNumber {ds : List Deposit} (growing : ds.Pairwise fun a b => a.number < b.number)
    {d : Deposit} (hd : d ∈ ds) (number : Nat) : d.number ≤ lastNumber ds number := by
  induction ds generalizing number with
  | nil => cases hd
  | cons d' ds ih =>
    rw [lastNumber_cons]
    obtain ⟨above, growing'⟩ := pairwise_cons.1 growing
    rcases mem_cons.1 hd with rfl | hd
    · rcases eq_nil_or_concat ds with rfl | ⟨init, last, rfl⟩
      · exact Nat.le_refl _
      · rw [concat_eq_append, lastNumber_append]
        exact Nat.le_of_lt (above last (by simp))
    · exact ih growing' hd d'.number

theorem foldl_absorb_day (day : close.closeType = .endOfDay) (ds : List Deposit) :
    ds.foldl (absorb registry) close =
      { close with
        toDepositNumber := lastNumber ds close.toDepositNumber
        zCloseDetails := (ds.flatMap (rowCalls registry)).foldl insertZDetail close.zCloseDetails
        cashReferenceSummaries :=
          (ds.flatMap (rowCalls registry)).foldl addSummary close.cashReferenceSummaries } := by
  induction ds generalizing close with
  | nil => rfl
  | cons d ds ih =>
    have here : close.absorb registry d = { close with
        toDepositNumber := d.number
        zCloseDetails := (rowCalls registry d).foldl insertZDetail close.zCloseDetails
        cashReferenceSummaries :=
          (rowCalls registry d).foldl addSummary close.cashReferenceSummaries } := by
      rw [absorb, day]
    rw [foldl_cons, here, ih (by exact day), flatMap_cons, foldl_append,
      foldl_append, lastNumber_cons]

theorem foldl_absorb_cash (cash : close.closeType = .cashClose) (ds : List Deposit) :
    ds.foldl (absorb registry) close =
      { close with
        toDepositNumber := lastNumber ds close.toDepositNumber
        zCloseDetails := (ds.flatMap (rowCashCalls registry fun _ => .manualCash)).foldl
          insertCashDetail close.zCloseDetails } := by
  induction ds generalizing close with
  | nil => rfl
  | cons d ds ih =>
    have here : close.absorb registry d = { close with
        toDepositNumber := d.number
        zCloseDetails := (rowCashCalls registry (fun _ => .manualCash) d).foldl insertCashDetail
          close.zCloseDetails } := by
      rw [absorb, cash]
    rw [foldl_cons, here, ih (by exact cash), flatMap_cons, foldl_append, lastNumber_cons]

theorem foldl_absorb_fields (registry : Registry) (close : ZClose) (ds : List Deposit) :
    let x := ds.foldl (absorb registry) close
    x.closeType = close.closeType ∧ x.cimCash = close.cimCash ∧ x.number = close.number ∧
      x.fromDepositNumber = close.fromDepositNumber ∧
      x.toDepositNumber = lastNumber ds close.toDepositNumber ∧
      x.rejectedQty = close.rejectedQty := by
  intro x
  cases type : close.closeType with
  | endOfDay =>
    have run : x = _ := foldl_absorb_day registry type ds
    rw [run]
    exact ⟨type, rfl, rfl, rfl, rfl, rfl⟩
  | cashClose =>
    have run : x = _ := foldl_absorb_cash registry type ds
    rw [run]
    exact ⟨type, rfl, rfl, rfl, rfl, rfl⟩

end ZClose

/-! ## The loop of the boot -/

theorem foldl_map_each {α β : Type} (f : α → β → α) (bs : List β) (l : List α) :
    bs.foldl (fun l b => l.map fun a => f a b) l = l.map fun a => bs.foldl f a := by
  induction bs generalizing l with
  | nil => simp
  | cons b bs ih =>
    rw [foldl_cons, ih, map_map]
    rfl

theorem visitDeposit_replayAll (registry : Registry) (closes : List ZClose) (d : Deposit) :
    CloseHistory.visitDeposit (replayAll registry) closes d =
      closes.map fun close => close.replayDeposit registry d := by
  show d.detailRecords.foldl _ (closes.map _) = _
  refine (foldl_map_each (fun close line =>
    ZClose.updateDepDetData registry close (.ofDeposit d) line) d.detailRecords _).trans ?_
  exact map_map

theorem foldl_replayAll (registry : Registry) (ds : List Deposit) (closes : List ZClose) :
    ds.foldl (CloseHistory.visitDeposit (replayAll registry)) closes =
      closes.map fun close => ds.foldl (ZClose.replayDeposit registry) close := by
  have each : CloseHistory.visitDeposit (replayAll registry) =
      fun closes d => closes.map fun close => close.replayDeposit registry d := by
    funext closes d
    exact visitDeposit_replayAll registry closes d
  rw [each, foldl_map_each]

end CimArm
