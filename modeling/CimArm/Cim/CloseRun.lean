import CimArm.Cim.CloseLedger
import CimArm.Lib.Trace

/-!
# Runs of a site

The operations of a site in any order: deposits end, closes are generated and the
program is restarted.  Each operation is some moves of the ledger (`step_moves`), as
long as the numbers of deposits and closes have room in their 32 bits.
-/

namespace CimArm

open MultiPart CloseMachine ZCloseDAO ZCloseManager List Function

/-- What happens at a site, with the settings that are read and the times. -/
inductive CloseOp
  | endDeposit (aDeposit : Deposit) (nextDepositNumber closeTime : Nat)
  | generateZClose (user : Option User) (closeTime now nextZNumber : Nat)
  | generateCashCloseForDoor (aDoor : Option Door) (aUser : Option User) (closeTime now : Nat)
  | restart (nextDepositNumber nextZNumber now : Nat)

namespace CloseHistory

/-- The machine after an operation, with what it has stored. -/
def step (site : CloseSite) (op : CloseOp) (h : CloseHistory) : CloseHistory :=
  match op with
  | .endDeposit aDeposit nextDepositNumber closeTime =>
    let (stored, machine) := h.machine.endDeposit site aDeposit nextDepositNumber closeTime
    ⟨machine, h.deposits ++ stored.toList, h.closes⟩
  | .generateZClose user closeTime now nextZNumber =>
    let (printed, machine) := h.machine.generateZClose site user closeTime now nextZNumber
    ⟨machine, h.deposits, h.closes ++ printed⟩
  | .generateCashCloseForDoor aDoor aUser closeTime now =>
    let (printed, machine) := h.machine.generateCashCloseForDoor site aDoor aUser closeTime now
    ⟨machine, h.deposits, h.closes ++ printed⟩
  | .restart nextDepositNumber nextZNumber now =>
    ⟨h.machine.boot site nextDepositNumber nextZNumber now, h.deposits, h.closes⟩

/-- The first boot of a site. -/
def booted (site : CloseSite) (nextDepositNumber nextZNumber now : Nat) : CloseHistory :=
  ⟨(created site).boot site nextDepositNumber nextZNumber now, [], []⟩

/-- Numbers have room: those of the closes and, for a deposit that is stored, its own. A
deposit is made on a cash of the site. -/
def Fits (site : CloseSite) (h : CloseHistory) : CloseOp → Prop
  | .endDeposit aDeposit nextDepositNumber _ => aDeposit.getQty > 0 →
    (∃ cash ∈ site.cimCashs, aDeposit.cimCash = some cash) ∧
      h.machine.lastDepositNumber + 2 < ulongSize ∧ nextDepositNumber + 1 < ulongSize
  | .generateZClose _ _ _ nextZNumber =>
    h.machine.manager.lastCashCloseNumber + h.machine.manager.currentCashCloses.length <
        ulongSize ∧
      h.machine.manager.currentZClose.number + 1 < ulongSize ∧ nextZNumber < ulongSize
  | .generateCashCloseForDoor .. =>
    h.machine.manager.lastCashCloseNumber + h.machine.manager.currentCashCloses.length < ulongSize
  | .restart _ nextZNumber _ => nextZNumber < ulongSize

instance (site : CloseSite) (h : CloseHistory) : (op : CloseOp) → Decidable (h.Fits site op)
  | .endDeposit .. => inferInstanceAs (Decidable (_ > _ → (∃ cash ∈ site.cimCashs, _) ∧ _ ∧ _))
  | .generateZClose .. => inferInstanceAs (Decidable (_ ∧ _ ∧ _))
  | .generateCashCloseForDoor .. => inferInstanceAs (Decidable (_ < _))
  | .restart .. => inferInstanceAs (Decidable (_ < _))

/-- The ledger of a machine whose open closes are these. -/
def ledgerOf (h : CloseHistory) (day : ZClose) (cashCloses : List ZClose)
    (lastCashCloseNumber : Nat) : Ledger where
  deposits := h.deposits
  dropped := h.deposits.length - h.machine.depositDAO.deposits.content.stored.length
  closes := h.closes
  droppedCloses := h.closes.length - h.rows.length
  day := day
  cashCloses := cashCloses
  lastCashCloseNumber := lastCashCloseNumber

def ledger (h : CloseHistory) : Ledger :=
  h.ledgerOf h.machine.manager.currentZClose h.machine.manager.currentCashCloses
    h.machine.manager.lastCashCloseNumber

/-- A machine in a run: its tables hold its history, its ledger is sound and its deposits
are numbered up to its last number. -/
structure Running (site : CloseSite) (h : CloseHistory) : Prop where
  persisted : Persisted site h
  sound : h.ledger.Sound site
  numbered : ∀ d ∈ h.deposits, d.number ≤ h.machine.lastDepositNumber

/-! ## Ended deposits -/

section processing

variable {closes : List ZClose}

theorem updateCashClose_eq (change : ZClose → ZClose) (aCimCash : Option CimCash)
    (distinct : (closes.map (·.cimCash)).Nodup) :
    updateCashClose aCimCash change closes =
      closes.map fun x => if x.cimCash = aCimCash then change x else x := by
  induction closes with
  | nil => rfl
  | cons x closes ih =>
    obtain ⟨other, distinct'⟩ := nodup_cons.1 distinct
    rw [updateCashClose, map_cons]
    split_ifs with mine
    · have rest : closes.map (fun x => if x.cimCash = aCimCash then change x else x) = closes := by
        conv_rhs => rw [← map_id closes]
        refine map_congr_left fun y hy => if_neg fun same => other ?_
        show x.cimCash ∈ closes.map (·.cimCash)
        rw [mine, ← same]
        exact mem_map_of_mem hy
      rw [rest]
    · rw [ih distinct']

theorem foldl_processDetail (aDeposit : Deposit) (m : ZCloseManager)
    (distinct : (m.currentCashCloses.map (·.cimCash)).Nodup) (details : List DepositDetail) :
    details.foldl (processDetail aDeposit) m =
      { m with
        currentZClose := (details.map (.ofDeposit aDeposit)).foldl ZClose.addZCloseDetail
          m.currentZClose
        currentCashCloses := m.currentCashCloses.map fun x =>
          if x.cimCash = aDeposit.cimCash then
            (details.map (.ofDeposit aDeposit)).foldl ZClose.addCashCloseDetail x
          else x } := by
  induction details generalizing m with
  | nil =>
    have same : m.currentCashCloses.map (fun x =>
        if x.cimCash = aDeposit.cimCash then x else x) = m.currentCashCloses := by simp
    rw [foldl_nil, map_nil, foldl_nil]
    exact congrArg (fun closes => { m with currentCashCloses := closes }) same.symm
  | cons detail details ih =>
    have here := updateCashClose_eq (·.addCashCloseDetail (.ofDeposit aDeposit detail))
      aDeposit.cimCash distinct
    have cashs : (processDetail aDeposit m detail).currentCashCloses.map (·.cimCash) =
        m.currentCashCloses.map (·.cimCash) := by
      rw [processDetail, here, map_map]
      refine map_congr_left fun x _ => ?_
      show (if x.cimCash = aDeposit.cimCash then _ else x).cimCash = x.cimCash
      split_ifs <;> rfl
    have both : (m.currentCashCloses.map fun x => if x.cimCash = aDeposit.cimCash
          then x.addCashCloseDetail (.ofDeposit aDeposit detail) else x).map (fun x =>
            if x.cimCash = aDeposit.cimCash then
              (details.map (.ofDeposit aDeposit)).foldl ZClose.addCashCloseDetail x
            else x) =
        m.currentCashCloses.map fun x => if x.cimCash = aDeposit.cimCash then
          ((detail :: details).map (.ofDeposit aDeposit)).foldl ZClose.addCashCloseDetail x
          else x := by
      rw [map_map]
      refine map_congr_left fun x _ => ?_
      rw [comp_apply]
      by_cases mine : x.cimCash = aDeposit.cimCash
      · have still : (x.addCashCloseDetail (.ofDeposit aDeposit detail)).cimCash =
            aDeposit.cimCash := mine
        rw [if_pos mine, if_pos still, if_pos mine]
        rfl
      · rw [if_neg mine, if_neg mine, if_neg mine]
    rw [foldl_cons, ih _ (cashs ▸ distinct), processDetail, here, both]
    rfl

theorem processDeposit_eq (m : ZCloseManager) (aDeposit : Deposit)
    (distinct : (m.currentCashCloses.map (·.cimCash)).Nodup)
    (day : m.currentZClose.closeType = .endOfDay)
    (cash : ∀ x ∈ m.currentCashCloses, x.closeType = .cashClose) :
    m.processDeposit aDeposit =
      { m with
        currentZClose := m.currentZClose.take aDeposit
        currentCashCloses := m.currentCashCloses.map (·.take aDeposit) } := by
  have cashs : (m.currentCashCloses.map (takeNumber aDeposit.number)).map (·.cimCash) =
      m.currentCashCloses.map (·.cimCash) := by
    rw [map_map]
    rfl
  have run := foldl_processDetail aDeposit
    { m with
      currentZClose := takeNumber aDeposit.number
        (m.currentZClose.addRejectedQty aDeposit.rejectedQty)
      currentCashCloses := m.currentCashCloses.map (takeNumber aDeposit.number) }
    (cashs ▸ distinct) aDeposit.depositDetails
  have both : (m.currentCashCloses.map (takeNumber aDeposit.number)).map (fun x =>
        if x.cimCash = aDeposit.cimCash then
          (aDeposit.depositDetails.map (.ofDeposit aDeposit)).foldl ZClose.addCashCloseDetail x
        else x) = m.currentCashCloses.map (·.take aDeposit) := by
    rw [map_map]
    refine map_congr_left fun x hx => ?_
    rw [comp_apply, ZClose.addCashCloseDetails_eq, ZClose.take, cash x hx]
    show (if x.cimCash = aDeposit.cimCash then _ else takeNumber aDeposit.number x) = _
    split_ifs <;> rfl
  rw [processDeposit, run, ZClose.addZCloseDetails_eq, both, ZClose.take, day]
  rfl

end processing

/-! ## Operations are moves -/

section moves

variable {site : CloseSite} {h : CloseHistory} {Ready : Ledger → Prop}

theorem Running.distinct (running : Running site h) :
    (h.machine.manager.currentCashCloses.map (·.cimCash)).Nodup := by
  have cashs : h.machine.manager.currentCashCloses.map (·.cimCash) =
      site.cimCashs.map some := running.sound.cimCashs
  rw [cashs]
  exact (List.Nodup.of_map _ site.distinct).map (Option.some_injective _)

theorem Persisted.stored_le (p : Persisted site h) :
    h.machine.depositDAO.deposits.content.stored.length ≤ h.deposits.length := by
  have := p.headers.length_le
  rwa [length_map] at this

theorem Persisted.rows_le (p : Persisted site h) : h.rows.length ≤ h.closes.length := by
  have := p.closes.suffix.length_le
  rwa [length_map] at this

variable {m : CloseMachine} {closeTime now : Nat}

theorem Persisted.stored_length (p : Persisted site h) {d : Deposit}
    (stored : m.depositDAO = h.machine.depositDAO.store site.tables d) :
    0 < m.depositDAO.deposits.content.stored.length ∧
      m.depositDAO.deposits.content.stored.length ≤
        h.machine.depositDAO.deposits.content.stored.length + 1 := by
  obtain ⟨level, aligned⟩ := p.sound.aligned
  have content := (DepositDAO.storeHeader_eq d p.sound.deposits p.sound.noAppend p.sound.noCut
    aligned).2.1
  rw [stored, Persisted.store_deposits, content,
    Content.store_stored site.tables.two_le aligned.wellFormed.toShaped, length_append]
  exact ⟨Nat.succ_pos _, Nat.succ_le_succ (Content.storedIn_staying_suffix _ _ _).length_le⟩

theorem Persisted.rows_length (p : Persisted site h) {z : ZClose}
    (stored : m.zCloseDAO = ZCloseDAO.store site.closes h.machine.zCloseDAO z) :
    m.zCloseDAO.content.stored.length ≤ h.rows.length + 1 := by
  obtain ⟨-, content, -⟩ := store_content site.closes.schema p.closes.synced
    (filled_of_shaped p.closes.shaped) (.ofClose z)
  rw [stored]
  show (MultiPart.store site.closes.schema h.machine.zCloseDAO (.ofClose z)).2.content.stored.length
    ≤ _
  rw [content, Content.store_stored site.closes.two_le p.closes.shaped, length_append]
  exact Nat.succ_le_succ (Content.storedIn_staying_suffix _ _ _).length_le

theorem Running.endDeposit (running : Running site h) {aDeposit : Deposit} {nextDepositNumber : Nat}
    (fits : h.Fits site (.endDeposit aDeposit nextDepositNumber closeTime)) :
    let h' := h.step site (.endDeposit aDeposit nextDepositNumber closeTime)
    Persisted site h' ∧ (∀ d ∈ h'.deposits, d.number ≤ h'.machine.lastDepositNumber) ∧
      Relation.ReflTransGen (Ledger.Step site Ready) h.ledger h'.ledger := by
  obtain ⟨p, sound, numbered⟩ := running
  intro h'
  by_cases value : aDeposit.getQty > 0
  · obtain ⟨cash, room, room'⟩ := fits value
    obtain ⟨last, last_eq⟩ : ∃ last, last = if nextDepositNumber > h.machine.lastDepositNumber
      then nextDepositNumber - 1 else h.machine.lastDepositNumber := ⟨_, rfl⟩
    obtain ⟨d, d_eq⟩ : ∃ d, d =
      { aDeposit with number := toULong (last + 1), closeTime := closeTime } := ⟨_, rfl⟩
    have last_le : h.machine.lastDepositNumber ≤ last ∧ last + 2 < ulongSize := by
      rw [last_eq]
      split_ifs <;> omega
    have number : d.number = last + 1 := by
      rw [d_eq]
      exact toULong_of_lt (by omega)
    have after (d' : Deposit) (hd' : d' ∈ h.deposits) : d'.number < d.number := by
      have := numbered d' hd'
      omega
    have details : d.depositDetails ≠ [] := by
      rw [d_eq]
      intro none
      have none' : aDeposit.depositDetails = [] := none
      simp [Deposit.getQty, none'] at value
    have cash' : ∃ cash ∈ site.cimCashs, d.cimCash = some cash := d_eq ▸ cash
    obtain ⟨m, m_eq⟩ : ∃ m : CloseMachine, m = { h.machine with
        depositDAO := h.machine.depositDAO.store site.tables d
        lastDepositNumber := d.number
        manager := h.machine.manager.processDeposit d } := ⟨_, rfl⟩
    have same : h' = ⟨m, h.deposits ++ [d], h.closes⟩ := by
      show step site _ h = _
      rw [step, CloseMachine.endDeposit, if_pos value, m_eq, d_eq, last_eq]
      rfl
    have stored : m.depositDAO = h.machine.depositDAO.store site.tables d := by rw [m_eq]
    have closes : m.zCloseDAO = h.machine.zCloseDAO := by rw [m_eq]
    have lastNumber : m.lastDepositNumber = d.number := by rw [m_eq]
    have manager : m.manager = _ := (congrArg CloseMachine.manager m_eq).trans
      (processDeposit_eq h.machine.manager d (Running.distinct ⟨p, sound, numbered⟩) sound.ofDay
        fun x hx => (sound.ofCash x hx).1)
    have moved : ledger ⟨m, h.deposits ++ [d], h.closes⟩ = h.ledger.deposit d
        ((h.deposits ++ [d]).length - m.depositDAO.deposits.content.stored.length) := by
      rw [ledger, ledgerOf, manager, rows, closes]
      rfl
    obtain ⟨positive, length⟩ := p.stored_length stored
    have total := p.stored_le
    have written : (h.deposits ++ [d]).length = h.deposits.length + 1 := length_append
    rw [same, moved]
    refine ⟨p.storeDeposit after (by omega) (by omega) details cash' stored closes, ?_,
      .single (.deposit ⟨after, by omega, by omega, details, cash'⟩ ?_ ?_)⟩
    · intro d' hd'
      rw [lastNumber]
      rcases mem_append.1 hd' with hd' | hd'
      · exact Nat.le_of_lt (after d' hd')
      · rw [mem_singleton.1 hd']
    · show h.deposits.length - _ ≤ _
      omega
    · show _ ≤ h.deposits.length
      omega
  · have same : h' = ⟨h.machine, h.deposits ++ [], h.closes⟩ := by
      show step site _ h = _
      rw [step, CloseMachine.endDeposit, if_neg value]
      rfl
    rw [append_nil] at same
    rw [same]
    exact ⟨p, numbered, .refl⟩

theorem Persisted.cashCloses_moves {wanted : ZClose → Bool} {aUser : Option User}
    {aCloseTime now : Nat} (day : ZClose) (done rest : List ZClose) (p : Persisted site h)
    (room : h.machine.manager.lastCashCloseNumber + rest.length < ulongSize) :
    let run := generateCashCloses site wanted aUser aCloseTime now rest h.machine
    let h' : CloseHistory := ⟨run.2.2, h.deposits, h.closes ++ run.1⟩
    Persisted site h' ∧
      Relation.ReflTransGen (Ledger.Step site Ready)
        (h.ledgerOf day (done ++ rest) h.machine.manager.lastCashCloseNumber)
        (h'.ledgerOf day (done ++ run.2.1) h'.machine.manager.lastCashCloseNumber) ∧
      h'.machine.depositDAO = h.machine.depositDAO ∧
      h'.machine.lastDepositNumber = h.machine.lastDepositNumber ∧
      h'.machine.manager.currentZClose = h.machine.manager.currentZClose := by
  induction rest generalizing h done with
  | nil =>
    intro run h'
    have same : h' = h := by
      show (⟨h.machine, h.deposits, h.closes ++ []⟩ : CloseHistory) = h
      rw [append_nil]
    rw [same]
    exact ⟨p, .refl, rfl, rfl, rfl⟩
  | cons x rest ih =>
    rw [length_cons] at room
    rw [generateCashCloses]
    by_cases taken : wanted x = true
    · rw [if_pos taken]
      obtain ⟨closed, closed_eq⟩ : ∃ closed, closed =
        (h.machine.generateCashClose site aUser aCloseTime x).1 := ⟨_, rfl⟩
      obtain ⟨m, m_eq⟩ : ∃ m, m = (h.machine.generateCashClose site aUser aCloseTime x).2 :=
        ⟨_, rfl⟩
      have stored : m.zCloseDAO = ZCloseDAO.store site.closes h.machine.zCloseDAO closed := by
        rw [m_eq, closed_eq]
        rfl
      have deposits : m.depositDAO = h.machine.depositDAO := by rw [m_eq]; rfl
      have number : closed.number = h.machine.manager.lastCashCloseNumber + 1 := by
        rw [closed_eq]
        exact toULong_of_lt (by omega)
      have last : m.manager.lastCashCloseNumber = h.machine.manager.lastCashCloseNumber + 1 := by
        rw [m_eq]
        exact toULong_of_lt (by omega)
      have same : x.ClosedAs closed := by
        rw [closed_eq]
        exact ⟨rfl, rfl, rfl, rfl, rfl, rfl, rfl⟩
      have p₁ : Persisted site ⟨m, h.deposits, h.closes ++ [closed]⟩ :=
        p.storeClose deposits stored
      have length := p.rows_length stored
      have total := p.rows_le
      have moved : (ledgerOf ⟨m, h.deposits, h.closes ++ [closed]⟩ day
          (done ++ nextCashClose closed now :: rest) m.manager.lastCashCloseNumber) =
          (h.ledgerOf day (done ++ x :: rest)
            h.machine.manager.lastCashCloseNumber).closeCash done rest closed now
            ((h.closes ++ [closed]).length - m.zCloseDAO.content.stored.length) := by
        rw [last, ledgerOf, deposits]
        rfl
      have written : (h.closes ++ [closed]).length = h.closes.length + 1 := length_append
      have forgets : (h.ledgerOf day (done ++ x :: rest)
          h.machine.manager.lastCashCloseNumber).droppedCloses ≤
          (h.closes ++ [closed]).length - m.zCloseDAO.content.stored.length := by
        show h.closes.length - h.rows.length ≤ _
        omega
      have move : Ledger.Step site Ready _ _ :=
        @Ledger.Step.closeCash site Ready (h.ledgerOf day (done ++ x :: rest)
          h.machine.manager.lastCashCloseNumber) _ _ _ _ now _ rfl same number
          (show h.machine.manager.lastCashCloseNumber + 1 < ulongSize by omega) forgets
      rw [← moved] at move
      have others := ih (h := ⟨m, h.deposits, h.closes ++ [closed]⟩)
        (done ++ [nextCashClose closed now]) p₁ (by
          show m.manager.lastCashCloseNumber + _ < _
          omega)
      have lastDeposit : m.lastDepositNumber = h.machine.lastDepositNumber := by rw [m_eq]; rfl
      have zClose : m.manager.currentZClose = h.machine.manager.currentZClose := by rw [m_eq]; rfl
      generalize h.machine.generateCashClose site aUser aCloseTime x = first at closed_eq m_eq
      obtain ⟨_, _⟩ := first
      subst closed_eq m_eq
      dsimp only at others ⊢
      generalize generateCashCloses site wanted aUser aCloseTime now rest _ = run at others ⊢
      obtain ⟨printed, current, m'⟩ := run
      dsimp only at others ⊢
      simp only [append_assoc, singleton_append] at others
      obtain ⟨p', moves, deposits', lastDeposit', zClose'⟩ := others
      exact ⟨p', .head move moves, deposits'.trans deposits, lastDeposit'.trans lastDeposit,
        zClose'.trans zClose⟩
    · rw [if_neg taken]
      have others := ih (h := h) (done ++ [x]) p (by omega)
      generalize generateCashCloses site wanted aUser aCloseTime now rest h.machine = run at others ⊢
      obtain ⟨printed, current, m'⟩ := run
      dsimp only at others ⊢
      simp only [append_assoc, singleton_append] at others
      exact others

theorem Persisted.congr (p : Persisted site h) (deposits : m.depositDAO = h.machine.depositDAO)
    (closes : m.zCloseDAO = h.machine.zCloseDAO) : Persisted site ⟨m, h.deposits, h.closes⟩ :=
  ⟨deposits ▸ p.sound, deposits ▸ p.headers, deposits ▸ p.newest, closes ▸ p.closes, p.growing,
    p.bounded, p.filled, p.cashs⟩

theorem Running.generateCashCloseForDoor (running : Running site h) {aDoor : Option Door}
    {aUser : Option User} (fits : h.Fits site (.generateCashCloseForDoor aDoor aUser closeTime now))
    : let h' := h.step site (.generateCashCloseForDoor aDoor aUser closeTime now)
    Persisted site h' ∧ (∀ d ∈ h'.deposits, d.number ≤ h'.machine.lastDepositNumber) ∧
      Relation.ReflTransGen (Ledger.Step site Ready) h.ledger h'.ledger := by
  obtain ⟨p, sound, numbered⟩ := running
  have run := @Persisted.cashCloses_moves site h Ready (behindDoor aDoor) aUser closeTime now
    h.machine.manager.currentZClose [] h.machine.manager.currentCashCloses p fits
  dsimp only [step, CloseMachine.generateCashCloseForDoor, closeCashs]
  generalize generateCashCloses site (behindDoor aDoor) aUser closeTime now
    h.machine.manager.currentCashCloses h.machine = first at run ⊢
  obtain ⟨printed, current, m⟩ := first
  obtain ⟨p', moves, -, lastDeposit, zClose⟩ := run
  dsimp only at p' moves lastDeposit zClose ⊢
  refine ⟨p'.congr rfl rfl, fun d hd => lastDeposit ▸ numbered d hd, ?_⟩
  have moved : ledger ⟨{ m with manager := { m.manager with currentCashCloses := current } },
      h.deposits, h.closes ++ printed⟩ =
      (⟨m, h.deposits, h.closes ++ printed⟩ : CloseHistory).ledgerOf
        h.machine.manager.currentZClose ([] ++ current) m.manager.lastCashCloseNumber := by
    rw [← zClose]
    rfl
  rw [moved]
  exact moves

theorem generateZClose_parts (m : CloseMachine) (user : Option User)
    (closeTime now nextZNumber : Nat) :
    ∃ (m₀ m' : CloseMachine) (printed current : List ZClose) (zClose : ZClose) (last : Nat),
      m₀ = { m with manager := { m.manager with
        currentZClose := { m.manager.currentZClose with user := user, closeTime := closeTime }
        lastZCloseTime := closeTime } } ∧
      generateCashCloses site (fun _ => true) user closeTime now m₀.manager.currentCashCloses m₀ =
        (printed, current, m') ∧
      zClose = { m'.manager.currentZClose with
        toCloseNumber := m'.manager.lastCashCloseNumber } ∧
      last = (if nextZNumber > zClose.number then nextZNumber - 1 else zClose.number) ∧
      m.generateZClose site user closeTime now nextZNumber = (printed ++ [zClose], { m' with
        zCloseDAO := ZCloseDAO.store site.closes m'.zCloseDAO zClose
        manager := { m'.manager with
          lastZCloseNumber := last
          currentCashCloses := current
          currentZClose := { ZClose.new with
            number := toULong (last + 1)
            openTime := closeTime
            fromCloseNumber := toULong (m'.manager.lastCashCloseNumber + 1) } } }) :=
  ⟨_, _, _, _, _, _, rfl, rfl, rfl, rfl, rfl⟩

theorem Running.generateZClose (running : Running site h) {user : Option User} {nextZNumber : Nat}
    (fits : h.Fits site (.generateZClose user closeTime now nextZNumber)) :
    let h' := h.step site (.generateZClose user closeTime now nextZNumber)
    Persisted site h' ∧ (∀ d ∈ h'.deposits, d.number ≤ h'.machine.lastDepositNumber) ∧
      Relation.ReflTransGen (Ledger.Step site Ready) h.ledger h'.ledger := by
  obtain ⟨p, sound, numbered⟩ := running
  obtain ⟨room, roomZ, roomNext⟩ := fits
  obtain ⟨m₀, m, printed, current, zClose, last, m₀_eq, loop, zClose_eq, last_eq, run⟩ :=
    generateZClose_parts h.machine user closeTime now nextZNumber
  have p₀ : Persisted site ⟨m₀, h.deposits, h.closes⟩ :=
    p.congr (by rw [m₀_eq]) (by rw [m₀_eq])
  have moved := @Persisted.cashCloses_moves site _ Ready (fun _ => true) user closeTime now
    h.machine.manager.currentZClose [] m₀.manager.currentCashCloses p₀ (by rw [m₀_eq]; exact room)
  dsimp only at moved
  rw [loop] at moved
  obtain ⟨p₁, moves, -, lastDeposit, day⟩ := moved
  dsimp only at p₁ moves lastDeposit day
  have day' : m.manager.currentZClose =
      { h.machine.manager.currentZClose with user := user, closeTime := closeTime } := by
    rw [day, m₀_eq]
  have same : h.machine.manager.currentZClose.ClosedAs zClose := by
    rw [zClose_eq, day']
    exact ⟨rfl, rfl, rfl, rfl, rfl, rfl, rfl⟩
  have number : zClose.number = h.machine.manager.currentZClose.number := by
    rw [zClose_eq, day']
  have next : toULong (last + 1) = last + 1 ∧ zClose.number ≤ last ∧ last + 1 < ulongSize := by
    have bound : zClose.number ≤ last ∧ last + 1 < ulongSize := by
      rw [last_eq]
      split_ifs <;> omega
    exact ⟨toULong_of_lt bound.2, bound⟩
  obtain ⟨m', m'_eq⟩ : ∃ m' : CloseMachine, m' = { m with
        zCloseDAO := ZCloseDAO.store site.closes m.zCloseDAO zClose
        manager := { m.manager with
          lastZCloseNumber := last
          currentCashCloses := current
          currentZClose := { ZClose.new with
            number := toULong (last + 1)
            openTime := closeTime
            fromCloseNumber := toULong (m.manager.lastCashCloseNumber + 1) } } } := ⟨_, rfl⟩
  have deposits : m'.depositDAO = m.depositDAO := by rw [m'_eq]
  have stored : m'.zCloseDAO = ZCloseDAO.store site.closes m.zCloseDAO zClose := by rw [m'_eq]
  have p₂ : Persisted site ⟨m', h.deposits, h.closes ++ printed ++ [zClose]⟩ :=
    p₁.storeClose deposits stored
  have length := p₁.rows_length stored
  have total := p₁.rows_le
  have written : (h.closes ++ printed ++ [zClose]).length = (h.closes ++ printed).length + 1 :=
    length_append
  have ended : h.step site (.generateZClose user closeTime now nextZNumber) =
      ⟨m', h.deposits, h.closes ++ printed ++ [zClose]⟩ := by
    rw [step, run, ← m'_eq, append_assoc]
  have first : h.ledger = (⟨m₀, h.deposits, h.closes⟩ : CloseHistory).ledgerOf
      h.machine.manager.currentZClose ([] ++ m₀.manager.currentCashCloses)
      m₀.manager.lastCashCloseNumber := by
    rw [m₀_eq]
    rfl
  have final : ledger ⟨m', h.deposits, h.closes ++ printed ++ [zClose]⟩ =
      ((⟨m, h.deposits, h.closes ++ printed⟩ : CloseHistory).ledgerOf
        h.machine.manager.currentZClose ([] ++ current) m.manager.lastCashCloseNumber).closeDay
          zClose m'.manager.currentZClose
          ((h.closes ++ printed ++ [zClose]).length - m'.zCloseDAO.content.stored.length) := by
    rw [ledger, ledgerOf, deposits, m'_eq]
    rfl
  have lastDeposit' : m'.lastDepositNumber = h.machine.lastDepositNumber := by
    rw [m'_eq]
    exact lastDeposit.trans (by rw [m₀_eq])
  have fresh : ZClose.new.ClosedAs m'.manager.currentZClose := by
    rw [m'_eq]
    exact ⟨rfl, rfl, rfl, rfl, rfl, rfl, rfl⟩
  have above : m'.manager.currentZClose.number = last + 1 := by
    rw [m'_eq]
    exact next.1
  have forgets : (h.closes ++ printed).length -
      (rows ⟨m, h.deposits, h.closes ++ printed⟩).length ≤
      (h.closes ++ printed ++ [zClose]).length - m'.zCloseDAO.content.stored.length := by
    omega
  intro h'
  have ended' : h' = _ := ended
  rw [ended', first, final]
  refine ⟨p₂, fun d hd => ?_, moves.tail (.closeDay same number fresh ?_ ?_ forgets)⟩
  · rw [lastDeposit']
    exact numbered d hd
  · show h.machine.manager.currentZClose.number < _
    omega
  · omega

theorem forall₂_exists_map {α β γ : Type} {R : α → γ → Prop} {f : γ → β} {l : List α}
    {l' : List β} (related : List.Forall₂ (fun a b => ∃ c, R a c ∧ b = f c) l l') :
    ∃ between, List.Forall₂ R l between ∧ l' = between.map f := by
  induction related with
  | nil => exact ⟨[], .nil, rfl⟩
  | cons here _ ih =>
    obtain ⟨c, hc, rfl⟩ := here
    obtain ⟨between, rest, rfl⟩ := ih
    exact ⟨c :: between, .cons hc rest, rfl⟩

theorem Persisted.boot_ledger (p : Persisted site h) (nextDepositNumber nextZNumber now : Nat)
    (l : Ledger) (same : ∃ day cashCloses last, l = h.ledgerOf day cashCloses last) :
    ∃ first, List.Forall₂ (fun first close => ∃ openTime,
        close = opened first.1 first.2 openTime) (firstNumbers l.rows site.cimCashs 1) first ∧
      ledger ⟨h.machine.boot site nextDepositNumber nextZNumber now, h.deposits, h.closes⟩ =
        l.restart site.registry nextZNumber first := by
  obtain ⟨day, cashCloses, last, rfl⟩ := same
  have booted := p.boot nextDepositNumber nextZNumber now
  generalize h.machine.boot site nextDepositNumber nextZNumber now = m at booted
  have rows : (h.ledgerOf day cashCloses last).rows = h.rows := p.stored_closes.symm
  obtain ⟨first, loaded, current⟩ := forall₂_exists_map
    (R := fun first close => ∃ openTime, close = opened first.1 first.2 openTime)
    (f := fun close => h.retained.foldl (ZClose.replayDeposit site.registry) close)
    (booted.cashCloses.imp fun head close here => by
      obtain ⟨openTime, same⟩ := here
      exact ⟨_, ⟨openTime, rfl⟩, same⟩)
  refine ⟨first, rows ▸ loaded, ?_⟩
  have dropped : h.deposits.length - m.depositDAO.deposits.content.stored.length =
      h.deposits.length - h.machine.depositDAO.deposits.content.stored.length := by
    have kept := congrArg List.length booted.retained
    rw [CloseHistory.retained, CloseHistory.retained, length_drop, length_drop] at kept
    have le := p.stored_le
    have le' := booted.persisted.stored_le
    dsimp only at kept le'
    omega
  have droppedCloses : h.closes.length - m.zCloseDAO.content.stored.length =
      h.closes.length - h.rows.length := by
    rw [booted.rows]
  rw [ledger, ledgerOf, current, booted.day, booted.lastCashCloseNumber, Ledger.restart,
    Ledger.firstDay, rows]
  dsimp only [CloseHistory.rows]
  rw [dropped, droppedCloses]
  rfl

theorem Running.restart (running : Running site h) {nextDepositNumber nextZNumber : Nat}
    (fits : h.Fits site (.restart nextDepositNumber nextZNumber now)) (ready : Ready h.ledger) :
    let h' := h.step site (.restart nextDepositNumber nextZNumber now)
    Persisted site h' ∧ (∀ d ∈ h'.deposits, d.number ≤ h'.machine.lastDepositNumber) ∧
      Relation.ReflTransGen (Ledger.Step site Ready) h.ledger h'.ledger := by
  obtain ⟨p, sound, numbered⟩ := running
  have booted := p.boot nextDepositNumber nextZNumber now
  obtain ⟨first, loaded, same⟩ := p.boot_ledger nextDepositNumber nextZNumber now h.ledger
    ⟨_, _, _, rfl⟩
  dsimp only [step]
  generalize h.machine.boot site nextDepositNumber nextZNumber now = m at booted same
  refine ⟨booted.persisted, fun d hd => ?_, ?_⟩
  · have last := booted.lastDepositNumber
    rw [p.getLast?_retained] at last
    have le : d.number ≤ (h.deposits.getLast?.map (·.number)).getD 0 :=
      ZClose.le_lastNumber sound.growing hd 0
    show d.number ≤ m.lastDepositNumber
    rw [last]
    dsimp only
    split_ifs <;> omega
  · rw [same]
    exact .single (.restart ready fits loaded)

theorem Running.step_moves (running : Running site h) {op : CloseOp} (fits : h.Fits site op)
    (ready : (∃ a b c, op = .restart a b c) → Ready h.ledger) :
    Persisted site (h.step site op) ∧
      (∀ d ∈ (h.step site op).deposits,
        d.number ≤ (h.step site op).machine.lastDepositNumber) ∧
      Relation.ReflTransGen (Ledger.Step site Ready) h.ledger (h.step site op).ledger := by
  cases op with
  | endDeposit => exact running.endDeposit fits
  | generateZClose => exact running.generateZClose fits
  | generateCashCloseForDoor => exact running.generateCashCloseForDoor fits
  | restart a b c => exact running.restart fits (ready ⟨a, b, c, rfl⟩)

theorem booted_ledger (site : CloseSite) (nextDepositNumber nextZNumber now : Nat) :
    ∃ first, List.Forall₂ (fun first close => ∃ openTime,
        close = opened first.1 first.2 openTime)
        (firstNumbers (Ledger.start site).rows site.cimCashs 1) first ∧
      (booted site nextDepositNumber nextZNumber now).ledger =
        (Ledger.start site).restart site.registry nextZNumber first :=
  (Persisted.created site).boot_ledger nextDepositNumber nextZNumber now (Ledger.start site)
    ⟨.new, site.cimCashs.map fun cash => opened cash 1 0, 0, rfl⟩

theorem running_booted (site : CloseSite) (nextDepositNumber : Nat) {nextZNumber : Nat}
    (now : Nat) (room : nextZNumber < ulongSize) :
    Running site (booted site nextDepositNumber nextZNumber now) := by
  obtain ⟨first, loaded, same⟩ := booted_ledger site nextDepositNumber nextZNumber now
  refine ⟨((Persisted.created site).boot nextDepositNumber nextZNumber now).persisted, ?_, ?_⟩
  · rw [same]
    exact (Ledger.sound_start site).restart room loaded
  · intro d hd
    cases hd

end moves

end CloseHistory

end CimArm
