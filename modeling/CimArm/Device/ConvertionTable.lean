import CimArm.Device.JcmBillAcceptorMgr
import CimArm.Lib.Trace
import Mathlib.Algebra.Order.Ring.Int
import Mathlib.Logic.Function.Basic

/-!
# The table of denominations

A validator reports each denomination as a value and a number of zeros; the driver keeps the
amount in a table of 26 rows, multiplies it by `MultipApp` for a bill in escrow or stacked, and
tells the application of the result.  A row is found by a byte of the message in the protocols
ID003 and CCNET.  An MEI validator sends the whole record with each bill, and the rows, one
more for each new denomination, only say which are disabled.

An answer that a command asks for is a message of its own, after the action that sends it.

* `amounts_exact`: the runs in which each bill is told with the product of its denomination and
  `MultipApp`.
* `indexes_inRange`: the runs whose indexes are all within the table.
-/

namespace CimArm.ConvertionTable

open Jcm List Function

/-! ## Amounts -/

/-- The value of an expression of 32 bits. -/
def int32 (x : Int) : Int := x.bmod 4294967296

/-- A power of ten in whole units: of a fraction nothing is left. -/
def power (n : Int) : Int := if n < 0 then 0 else 10 ^ n.toNat

/-- `pow(10, n)` assigned to an `int`, the largest one if it is too large. -/
def multip (n : Int) : Int := min (power n) 2147483647

/-- `val * multip`, an `int`. -/
def amountOf (val tzeros : Int) : Int := int32 (val * multip tzeros)

/-- What the validator reports with a value and a number of zeros. -/
def denomination (val tzeros : Int) : Int := val * power tzeros

/-! ## The currency file -/

structure FCurrType : Type where
  cashCodeVal : List UInt8
  isoStrVal : List UInt8
  jcmVal : Int
  currencyId : Int

def getCurrencyId (file : List FCurrType) (found : FCurrType → Bool) : Int :=
  match file.find? found with
  | some currencyData => currencyData.currencyId
  | none => 0

def getCurrencyIdFromCashCode (file : List FCurrType) (countryStr : List UInt8) : Int :=
  getCurrencyId file fun c => c.cashCodeVal = countryStr

def getCurrencyIdFromJcm (file : List FCurrType) (countryCode : UInt8) : Int :=
  getCurrencyId file fun c => c.jcmVal = countryCode.toNat

def getCurrencyIdFromISOStr (file : List FCurrType) (countryStr : List UInt8) : Int :=
  getCurrencyId file fun c => c.isoStrVal = countryStr

/-! ## The record of an MEI bill -/

def isspace (c : UInt8) : Bool := c = 32 ∨ 9 ≤ c ∧ c ≤ 13

def isdigit (c : UInt8) : Bool := 48 ≤ c ∧ c ≤ 57

def digits (s : List UInt8) : Int :=
  (s.takeWhile isdigit).foldl (fun n c => n * 10 + (c.toNat - 48 : Nat)) 0

def atoi (s : List UInt8) : Int :=
  let s := s.dropWhile isspace
  if s.head? = some 0x2D then -digits (s.drop 1)
  else if s.head? = some 0x2B then digits (s.drop 1)
  else digits s

/-- The record stands behind six bytes of status: its number, the country, the base, a byte,
the exponent and a byte.  Without the second letter of the country it is empty. -/
def hasRecord (dataEvPtr : List UInt8) : Bool :=
  8 < dataEvPtr.length ∧ dataEvPtr.getD 8 0 ≠ 0

def base (dataEvPtr : List UInt8) : Int := atoi ((dataEvPtr.drop 10).take 3)

def exponent (dataEvPtr : List UInt8) : Int := atoi ((dataEvPtr.drop 14).take 2)

/-- The amount and the currency. -/
def processCurrencyAssignmentMei (file : List FCurrType) (dataEvPtr : List UInt8) : Int × Int :=
  if hasRecord dataEvPtr then
    (amountOf (base dataEvPtr) (exponent dataEvPtr),
      getCurrencyIdFromISOStr file ((dataEvPtr.drop 7).take 3))
  else (0, 0)

/-- The denomination that the record reports. -/
def denominationMei (dataEvPtr : List UInt8) : Int :=
  if hasRecord dataEvPtr then denomination (base dataEvPtr) (exponent dataEvPtr) else 0

/-! ## The driver -/

structure JCMDenomination : Type where
  amount : Int
  currencyId : Int
  disabled : Bool

def JCMDenomination.zero : JCMDenomination := ⟨0, 0, false⟩

/-- The fields that the table and the amounts need, and the file behind `fpValStat`.  The rows
are found by any index, those outside of the table included.

Of the last five, which are no fields of the driver, two are about the last message: the bills
told and the indexes used.  The others are what the validator reported: the denomination of
each row, that of the bill behind `amountChar` and that of the bill in the file. -/
structure JcmBillAcceptData : Type where
  protocol : Protocol
  status : JcmStatus
  amountChar : Int
  currencyId : Int
  convertionTable : Int → JCMDenomination
  denominationsQty : Nat
  billTableLoaded : Bool
  billDepositQty : Int
  fpValStat : TempValInfo
  told : List Credit
  used : List Int
  reported : Int → Option Int
  escrowed : Option Int
  noted : Int

/-- An index of the table. -/
def InTable (index : Int) : Prop := 0 ≤ index ∧ index < 26

instance (index : Int) : Decidable (InTable index) := inferInstanceAs (Decidable (_ ∧ _))

namespace JcmBillAcceptData

def use (self : JcmBillAcceptData) (index : Int) : JcmBillAcceptData :=
  { self with used := self.used ++ [index] }

/-- `billAcceptNotificationFcn`. -/
def notify (self : JcmBillAcceptData) (amountChar currencyId : Int) : JcmBillAcceptData :=
  { self with told := self.told ++ [(amountChar, currencyId)] }

/-! ### ID003 and CCNET -/

/-- `memset` of the table. -/
def clearTable (self : JcmBillAcceptData) : JcmBillAcceptData :=
  { self with
    convertionTable := fun i => if InTable i then .zero else self.convertionTable i
    reported := fun i => if InTable i then none else self.reported i }

/-- Set a row to a reported denomination. -/
def assign (self : JcmBillAcceptData) (index val tzeros currencyId : Int) : JcmBillAcceptData :=
  { self.use index with
    convertionTable := Function.update self.convertionTable index
      { self.convertionTable index with amount := amountOf val tzeros, currencyId := currencyId }
    reported := Function.update self.reported index (some (denomination val tzeros)) }

/-- The loop over the records of ID003, of four bytes. -/
def loadJcm (file : List FCurrType) : Nat → List UInt8 → JcmBillAcceptData → JcmBillAcceptData
  | 0, _, self => self
  | left + 1, jcmBillTable, self =>
    let escrowCode := jcmBillTable.getD 0 0
    let countryCode := jcmBillTable.getD 1 0
    let self :=
      if countryCode ≠ 0 then
        self.assign (escrowCode.toNat - 0x61) (jcmBillTable.getD 2 0).toNat
          (jcmBillTable.getD 3 0).toNat (getCurrencyIdFromJcm file countryCode)
      else self
    loadJcm file left (jcmBillTable.drop 4) self

/-- The loop over the records of CCNET, of five bytes; the second argument is `i`. -/
def loadCcnet (file : List FCurrType) :
    Nat → Nat → List UInt8 → JcmBillAcceptData → JcmBillAcceptData
  | 0, _, _, self => self
  | left + 1, i, ccnetBillTable, self =>
    loadCcnet file left (i + 1) (ccnetBillTable.drop 5)
      (self.assign i (ccnetBillTable.getD 0 0).toNat (ccnetBillTable.getD 4 0).toNat
        (getCurrencyIdFromCashCode file ((ccnetBillTable.drop 1).take 3)))

def processCurrencyAssignment (file : List FCurrType) (dataEvPtr : List UInt8)
    (self : JcmBillAcceptData) : JcmBillAcceptData :=
  let self := self.clearTable
  if self.protocol = .ID003 then
    { loadJcm file (dataEvPtr.length / 4) dataEvPtr self with billTableLoaded := true }
  else if dataEvPtr.getD 0 0 ≠ 0x30 then
    { loadCcnet file 24 0 dataEvPtr self with billTableLoaded := true }
  else self

/-- The bill of a row. -/
def setAmount (self : JcmBillAcceptData) (index : Int) : JcmBillAcceptData :=
  { self.use index with
    amountChar := (self.convertionTable index).amount * MultipApp
    currencyId := (self.convertionTable index).currencyId
    escrowed := self.reported index }

def notifyBillAccepted (self : JcmBillAcceptData) : JcmBillAcceptData :=
  if self.amountChar ≠ -1 then
    { self.notify self.amountChar self.currencyId with amountChar := -1 }
  else self

/-- Stack the bill of a row in escrow, or tell of it and return it.  A disabled one is not
told. -/
def sendStack (self : JcmBillAcceptData) (index : Int) : JcmBillAcceptData :=
  let billDisabled := (self.convertionTable index).disabled
  let self := self.setAmount index
  if self.status = .enable ∧ billDisabled = false ∧ self.amountChar > 0 then self
  else
    let self :=
      if self.status = .enable ∧ billDisabled = true then { self with amountChar := -1 } else self
    self.notifyBillAccepted

/-- The row of the byte of a message, which ID003 counts from the letter `a` on in a byte. -/
def index (self : JcmBillAcceptData) (code : UInt8) : Int :=
  if self.protocol = .ID003 then (code - 0x61).toNat else code.toNat

def sendStackID003 (code : UInt8) (self : JcmBillAcceptData) : JcmBillAcceptData :=
  self.sendStack (self.index code)

def sendStackCcnet (code : UInt8) (self : JcmBillAcceptData) : JcmBillAcceptData :=
  self.sendStack code.toNat

/-- In CCNET the bill is read again from the table. -/
def sendVendValidNotification (code : UInt8) (self : JcmBillAcceptData) : JcmBillAcceptData :=
  let self := if self.protocol = .CCNET then self.setAmount code.toNat else self
  self.notifyBillAccepted

/-! ### MEI -/

/-- Note a bill in the file, and its denomination. -/
def setValStatus (self : JcmBillAcceptData) (newStatus : Code)
    (billQty amount currencyId noted : Int) : JcmBillAcceptData :=
  { self with fpValStat := ⟨newStatus, billQty, amount, currencyId⟩, noted := noted }

/-- The first of the rows that `found` holds of, or their number. -/
def search (table : Int → JCMDenomination) (found : JCMDenomination → Bool) : Nat → Nat → Nat
  | 0, i => i
  | left + 1, i => if found (table i) then i else search table found left (i + 1)

/-- The rows up to `i` were looked at. -/
def look (self : JcmBillAcceptData) (i qty : Nat) : JcmBillAcceptData :=
  { self with used := self.used ++ (List.range (min (i + 1) qty)).map Nat.cast }

/-- The row of a bill in the list, or the end of the list. -/
def searchBill (self : JcmBillAcceptData) (amount currencyId : Int) : Nat :=
  search self.convertionTable (fun d => d.amount = amount ∧ d.currencyId = currencyId)
    self.denominationsQty 0

def addCurrencyToList (self : JcmBillAcceptData) (amount currencyId : Int) : JcmBillAcceptData :=
  let i := self.searchBill amount currencyId
  let self := self.look i self.denominationsQty
  if i = self.denominationsQty then
    { self.use i with
      convertionTable := Function.update self.convertionTable i
        { self.convertionTable i with amount := amount, currencyId := currencyId }
      denominationsQty := self.denominationsQty + 1 }
  else self

def requestNextCurrencyItemMei (file : List FCurrType) (dataEvPtr : List UInt8)
    (self : JcmBillAcceptData) : JcmBillAcceptData :=
  let (amountAux, curIdAux) := processCurrencyAssignmentMei file dataEvPtr
  if amountAux > 0 then self.addCurrencyToList amountAux curIdAux
  else { self with billTableLoaded := true }

/-- Without the table, ask for it. -/
def initDataMissingMei (self : JcmBillAcceptData) : JcmBillAcceptData :=
  if self.billTableLoaded = false then { self.clearTable with denominationsQty := 0 } else self

def requestStackMei (file : List FCurrType) (dataEvPtr : List UInt8) (self : JcmBillAcceptData) :
    JcmBillAcceptData :=
  let (amountAux, curIdAux) := processCurrencyAssignmentMei file dataEvPtr
  let self := { self with amountChar := amountAux * MultipApp, currencyId := curIdAux }
  let i := self.searchBill amountAux curIdAux
  let self := self.look i self.denominationsQty
  let billDisabled := i < self.denominationsQty ∧ (self.convertionTable i).disabled
  if amountAux > 0 then
    if self.status = .enable ∧ ¬billDisabled then
      self.setValStatus .ID003_ESCROW self.billDepositQty amountAux self.currencyId
        (denominationMei dataEvPtr)
    else if self.status = .validateOnly then self.notify self.amountChar self.currencyId
    else self
  else self

/-- An amount read from the file is multiplied in 32 bits. -/
def notifyBillAcceptedMei (file : List FCurrType) (dataEvPtr : List UInt8)
    (self : JcmBillAcceptData) : JcmBillAcceptData :=
  let (amountAux, curIdAux) := processCurrencyAssignmentMei file dataEvPtr
  let self : JcmBillAcceptData :=
    { self with amountChar := amountAux * MultipApp, currencyId := curIdAux }
  if self.amountChar > 0 then
    let self := { self with billDepositQty := self.billDepositQty + 1 }
    let self := self.setValStatus .ID003_STACKED self.billDepositQty amountAux self.currencyId
      (denominationMei dataEvPtr)
    { self.notify self.amountChar self.currencyId with amountChar := 0 }
  else
    let ⟨valSt, _, amountAux, curIdAux⟩ := self.fpValStat
    let self := { self with amountChar := int32 (amountAux * MultipApp) }
    if valSt = .ID003_ESCROW ∧ amountAux > 0 then
      let self := { self with billDepositQty := self.billDepositQty + 1 }
      let self := self.setValStatus .ID003_STACKED self.billDepositQty amountAux curIdAux self.noted
      self.notify self.amountChar curIdAux
    else self

/-- A bill stacked during the restart; its amount goes no further. -/
def powerUpBillAcceptedMei (self : JcmBillAcceptData) : JcmBillAcceptData :=
  let ⟨valSt, billQty, amountAux, curIdAux⟩ := self.fpValStat
  let self := { self with amountChar := int32 (amountAux * MultipApp), currencyId := curIdAux }
  if valSt = .ID003_ESCROW then
    self.setValStatus .ID003_STACKED (billQty + 1) amountAux curIdAux self.noted
  else self

def resetFileStatusMei (self : JcmBillAcceptData) : JcmBillAcceptData :=
  { self with billDepositQty := 0 }.setValStatus .zero 0 0 0 0

/-- The last bill that the recovery of a deposit asks for. -/
def getLastStackedQtyMEI (self : JcmBillAcceptData) : JcmBillAcceptData :=
  (self.notify (self.fpValStat.amount * MultipApp) self.fpValStat.currencyId).resetFileStatusMei

def cleanLastBillFileStatus (self : JcmBillAcceptData) : JcmBillAcceptData :=
  if self.fpValStat.status = .ID003_ESCROW then
    self.setValStatus .zero self.billDepositQty 0 0 0
  else self

/-! ### The application -/

def billAcceptorSetStatus (newStatus : JcmStatus) (self : JcmBillAcceptData) :
    JcmBillAcceptData :=
  if self.status ≠ newStatus then
    let self := { self with status := newStatus }
    if self.protocol = .EBDS ∧ (newStatus = .enable ∨ newStatus = .validateOnly) then
      self.resetFileStatusMei
    else self
  else self

/-- Only the first eight rows are looked at. -/
def billAcceptorSetDenomination (amount : Int) (disable : Bool) (self : JcmBillAcceptData) :
    JcmBillAcceptData :=
  let amountDen := int32 (amount.tdiv MultipApp)
  let i := search self.convertionTable (fun d => d.amount = amountDen) 8 0
  let self := self.look i 8
  if i < 8 then
    { self with
      convertionTable := Function.update self.convertionTable i
        { self.convertionTable i with disabled := disable } }
  else self

end JcmBillAcceptData

open JcmBillAcceptData

/-- A driver whose rows are cleared, over a status file. -/
def newState (protocol : Protocol) (fpValStat : TempValInfo) (noted : Int) : JcmBillAcceptData where
  protocol := protocol
  status := .disable
  amountChar := 0
  currencyId := 0
  convertionTable := fun _ => .zero
  denominationsQty := 0
  billTableLoaded := false
  billDepositQty := 0
  fpValStat := fpValStat
  told := []
  used := []
  reported := fun _ => none
  escrowed := none
  noted := noted

/-! ## Runs -/

/-- The messages of a validator, by what they report, and what the application does. -/
inductive Op
  /-- The denominations of a validator in ID003 or CCNET. -/
  | currencyAssignment (dataEvPtr : List UInt8)
  | escrow (code : UInt8)
  /-- A bill is stacked. -/
  | vendValid (code : UInt8)
  /-- A denomination of an MEI validator. -/
  | currencyItem (dataEvPtr : List UInt8)
  | escrowMei (dataEvPtr : List UInt8)
  | stackedMei (dataEvPtr : List UInt8)
  | stackedOnPowerUpMei
  | getLastStackedQty
  /-- The guard of the initial state. -/
  | initDataMissing
  /-- A firmware is loaded. -/
  | updateFirmware
  | errorState
  | setStatus (newStatus : JcmStatus)
  | setDenomination (amount : Int) (disable : Bool)
  /-- The driver starts again, over the file. -/
  | restart

/-- What the machines of ID003 and CCNET do. -/
def stepJcm (file : List FCurrType) (op : Op) (self : JcmBillAcceptData) : JcmBillAcceptData :=
  match op with
  | .currencyAssignment dataEvPtr => self.processCurrencyAssignment file dataEvPtr
  | .escrow code =>
    if self.protocol = .CCNET then self.sendStackCcnet code else self.sendStackID003 code
  | .vendValid code => self.sendVendValidNotification code
  | .updateFirmware => { self with billTableLoaded := false }
  | .setStatus newStatus => self.billAcceptorSetStatus newStatus
  | .setDenomination amount disable => self.billAcceptorSetDenomination amount disable
  | .restart => newState self.protocol self.fpValStat self.noted
  | _ => self

/-- What the machine of an MEI validator does. -/
def stepMei (file : List FCurrType) (op : Op) (self : JcmBillAcceptData) : JcmBillAcceptData :=
  match op with
  | .currencyItem dataEvPtr => self.requestNextCurrencyItemMei file dataEvPtr
  | .escrowMei dataEvPtr => self.requestStackMei file dataEvPtr
  | .stackedMei dataEvPtr => self.notifyBillAcceptedMei file dataEvPtr
  | .stackedOnPowerUpMei => self.powerUpBillAcceptedMei
  | .getLastStackedQty => self.getLastStackedQtyMEI
  | .initDataMissing => self.initDataMissingMei
  | .updateFirmware => { self with billTableLoaded := false }
  | .errorState => self.cleanLastBillFileStatus
  | .setStatus newStatus => self.billAcceptorSetStatus newStatus
  | .setDenomination amount disable => self.billAcceptorSetDenomination amount disable
  | .restart => newState self.protocol self.fpValStat self.noted
  | _ => self

def step (file : List FCurrType) (op : Op) (s : JcmBillAcceptData) : JcmBillAcceptData :=
  let s := { s with told := [], used := [] }
  if s.protocol = .EBDS then stepMei file op s else stepJcm file op s

/-! ## Amounts -/

/-- An amount in 32 bits stands for a denomination, and is equal to it just in case it fits. -/
def Stored (d amount : Int) : Prop := 0 ≤ d ∧ (amount = d ↔ d < 2147483648)

theorem int32_lt (x : Int) : int32 x < 2147483648 :=
  Int.bmod_lt (by decide)

theorem int32_eq_iff {x : Int} (nonneg : 0 ≤ x) : int32 x = x ↔ x < 2147483648 := by
  constructor
  · intro eq
    exact eq ▸ int32_lt x
  · intro fits
    exact Int.bmod_eq_of_le (by omega) (by omega)

theorem power_nonneg (n : Int) : 0 ≤ power n := by
  rw [power]
  split
  · exact le_refl 0
  · exact Int.pow_nonneg (by decide)

theorem stored_amountOf {val tzeros : Int} (nonneg : 0 ≤ denomination val tzeros) :
    Stored (denomination val tzeros) (amountOf val tzeros) := by
  refine ⟨nonneg, ?_⟩
  rcases Int.lt_or_le (power tzeros) 2147483648 with small | large
  · have whole : multip tzeros = power tzeros := by
      rw [multip]
      omega
    rw [amountOf, whole]
    exact int32_eq_iff nonneg
  · -- The product is zero, or the power alone is too large.
    have power_pos : 0 < power tzeros := by omega
    have val_nonneg : 0 ≤ val := nonneg_of_mul_nonneg_left nonneg power_pos
    rcases Int.lt_or_eq_of_le val_nonneg with val_pos | rfl
    · have above : power tzeros ≤ denomination val tzeros :=
        le_mul_of_one_le_left power_pos.le val_pos
      have below : amountOf val tzeros < 2147483648 := int32_lt _
      omega
    · rw [amountOf, denomination]
      simp [int32]

theorem denomination_nonneg (val : UInt8) (tzeros : Int) :
    0 ≤ denomination val.toNat tzeros :=
  mul_nonneg (Int.natCast_nonneg _) (power_nonneg _)

namespace Stored

variable {d amount : Int}

theorem scaled_iff (stored : Stored d amount) :
    amount * MultipApp = d * MultipApp ↔ d < 2147483648 := by
  rw [← stored.2]
  exact Int.mul_eq_mul_right_iff (by decide)

theorem int32_iff (stored : Stored d amount) :
    int32 (amount * MultipApp) = d * MultipApp ↔ d * MultipApp < 2147483648 := by
  have nonneg := stored.1
  have scaled_nonneg : 0 ≤ d * MultipApp := mul_nonneg nonneg (by decide)
  constructor
  · intro eq
    exact eq ▸ int32_lt _
  · intro fits
    have small : d < 2147483648 := by
      rw [MultipApp] at fits
      omega
    rw [stored.2.2 small]
    exact (int32_eq_iff scaled_nonneg).2 fits

end Stored

theorem stored_mei {file : List FCurrType} {dataEvPtr : List UInt8}
    (nonneg : 0 ≤ denominationMei dataEvPtr) :
    Stored (denominationMei dataEvPtr) (processCurrencyAssignmentMei file dataEvPtr).1 := by
  rw [denominationMei] at nonneg ⊢
  rw [processCurrencyAssignmentMei]
  by_cases record : hasRecord dataEvPtr
  · rw [if_pos record] at nonneg ⊢
    rw [if_pos record]
    exact stored_amountOf nonneg
  · rw [if_neg record, if_neg record]
    exact ⟨le_refl 0, by decide⟩

/-! ## What holds in every run -/

/-- The rows hold what was reported. -/
def Rows (s : JcmBillAcceptData) : Prop :=
  ∀ i d, s.reported i = some d → Stored d (s.convertionTable i).amount

/-- In ID003 and CCNET the rows and the bill in escrow hold what was reported; in the file of
an MEI validator the bill does. -/
structure Inv (s : JcmBillAcceptData) : Prop where
  rows : s.protocol ≠ .EBDS → Rows s
  escrowed : s.protocol ≠ .EBDS → ∀ d, s.escrowed = some d → s.amountChar ≠ -1 →
    ∃ amount, s.amountChar = amount * MultipApp ∧ Stored d amount
  noted : 0 ≤ s.noted → Stored s.noted s.fpValStat.amount
  inEscrow : s.fpValStat.status = .ID003_ESCROW → 0 < s.fpValStat.amount

section

variable {file : List FCurrType} {s t : JcmBillAcceptData}

/-- Nothing but the table changes. -/
structure SameBooks (s t : JcmBillAcceptData) : Prop where
  protocol : t.protocol = s.protocol
  amountChar : t.amountChar = s.amountChar
  escrowed : t.escrowed = s.escrowed
  noted : t.noted = s.noted
  fpValStat : t.fpValStat = s.fpValStat

theorem Inv.of_same (inv : Inv s) (same : SameBooks s t)
    (rows : s.protocol ≠ .EBDS → Rows t) : Inv t where
  rows := by
    rw [same.protocol]
    exact rows
  escrowed := by
    rw [same.protocol, same.amountChar, same.escrowed]
    exact inv.escrowed
  noted := by
    rw [same.noted, same.fpValStat]
    exact inv.noted
  inEscrow := by
    rw [same.fpValStat]
    exact inv.inEscrow

/-! ### The table -/

theorem Rows.clearTable (rows : Rows s) : Rows s.clearTable := by
  intro i d told
  dsimp only [JcmBillAcceptData.clearTable] at told ⊢
  split at told
  · cases told
  · rename_i outside
    rw [if_neg outside]
    exact rows i d told

theorem Rows.assign (rows : Rows s) (index : Int) (val : UInt8) (tzeros currencyId : Int) :
    Rows (s.assign index val.toNat tzeros currencyId) := by
  intro i d told
  dsimp only [JcmBillAcceptData.assign, JcmBillAcceptData.use] at told ⊢
  by_cases here : i = index
  · subst here
    rw [update_self] at told ⊢
    obtain rfl := Option.some.inj told
    exact stored_amountOf (denomination_nonneg val tzeros)
  · rw [update_of_ne here] at told ⊢
    exact rows i d told

theorem Inv.assign (inv : Inv s) (index : Int) (val : UInt8) (tzeros currencyId : Int) :
    Inv (s.assign index val.toNat tzeros currencyId) :=
  inv.of_same ⟨rfl, rfl, rfl, rfl, rfl⟩ fun jcm => (inv.rows jcm).assign index val tzeros currencyId

theorem Inv.loadJcm (inv : Inv s) (left : Nat) (table : List UInt8) :
    Inv (s.loadJcm file left table) := by
  induction left generalizing table s with
  | zero => exact inv
  | succ left ih =>
    rw [JcmBillAcceptData.loadJcm]
    refine ih ?_ _
    split
    · exact inv.assign _ _ _ _
    · exact inv

theorem Inv.loadCcnet (inv : Inv s) (left i : Nat) (table : List UInt8) :
    Inv (s.loadCcnet file left i table) := by
  induction left generalizing i table s with
  | zero => exact inv
  | succ left ih => exact ih (inv.assign _ _ _ _) _ _

theorem Inv.loaded (inv : Inv s) : Inv { s with billTableLoaded := true } :=
  inv.of_same ⟨rfl, rfl, rfl, rfl, rfl⟩ inv.rows

theorem Inv.processCurrencyAssignment (inv : Inv s) (dataEvPtr : List UInt8) :
    Inv (s.processCurrencyAssignment file dataEvPtr) := by
  have cleared : Inv s.clearTable :=
    inv.of_same ⟨rfl, rfl, rfl, rfl, rfl⟩ fun jcm => (inv.rows jcm).clearTable
  rw [JcmBillAcceptData.processCurrencyAssignment]
  dsimp only
  split
  · exact (cleared.loadJcm _ dataEvPtr).loaded
  · split
    · exact (cleared.loadCcnet 24 0 dataEvPtr).loaded
    · exact cleared

/-! ### A bill in ID003 and CCNET -/

theorem Inv.setAmount (inv : Inv s) (jcm : s.protocol ≠ .EBDS) (index : Int) :
    Inv (s.setAmount index) where
  rows := inv.rows
  escrowed := by
    intro _ d reported _
    exact ⟨_, rfl, inv.rows jcm index d reported⟩
  noted := inv.noted
  inEscrow := inv.inEscrow

theorem Inv.withoutBill (inv : Inv s) : Inv { s with amountChar := -1 } where
  rows := inv.rows
  escrowed := fun _ _ _ present => absurd rfl present
  noted := inv.noted
  inEscrow := inv.inEscrow

theorem Inv.notifyBillAccepted (inv : Inv s) : Inv s.notifyBillAccepted := by
  rw [JcmBillAcceptData.notifyBillAccepted]
  split
  · exact inv.withoutBill.of_same ⟨rfl, rfl, rfl, rfl, rfl⟩ inv.rows
  · exact inv

theorem Inv.sendStack (inv : Inv s) (jcm : s.protocol ≠ .EBDS) (index : Int) :
    Inv (s.sendStack index) := by
  have set := inv.setAmount jcm index
  rw [JcmBillAcceptData.sendStack]
  dsimp only
  split
  · exact set
  · split
    · exact set.withoutBill.notifyBillAccepted
    · exact set.notifyBillAccepted

theorem scaled_ne (amount : Int) : amount * MultipApp ≠ -1 := by
  rw [MultipApp]
  omega

theorem sendStack_told (silent : s.told = []) (index : Int) :
    (s.sendStack index).told =
      if s.status = .enable ∧
          ((s.convertionTable index).disabled ∨ 0 < (s.convertionTable index).amount) then []
      else [((s.convertionTable index).amount * MultipApp,
        (s.convertionTable index).currencyId)] := by
  have positive : (s.convertionTable index).amount * MultipApp > 0 ↔
      0 < (s.convertionTable index).amount := by
    rw [MultipApp]
    omega
  rw [JcmBillAcceptData.sendStack]
  by_cases enabled : s.status = .enable
  · cases disabled : (s.convertionTable index).disabled
    · by_cases stacked : 0 < (s.convertionTable index).amount
      · simp [setAmount, JcmBillAcceptData.use, enabled, positive, stacked, silent]
      · simp [setAmount, JcmBillAcceptData.use, JcmBillAcceptData.notifyBillAccepted, notify,
          enabled, positive, stacked, silent, scaled_ne]
    · simp [setAmount, JcmBillAcceptData.use, JcmBillAcceptData.notifyBillAccepted, enabled, silent]
  · simp [setAmount, JcmBillAcceptData.use, JcmBillAcceptData.notifyBillAccepted, notify,
      enabled, silent, scaled_ne]

/-! ### A bill of an MEI validator -/

theorem Inv.of_mei (mei : t.protocol = .EBDS)
    (noted : 0 ≤ t.noted → Stored t.noted t.fpValStat.amount)
    (inEscrow : t.fpValStat.status = .ID003_ESCROW → 0 < t.fpValStat.amount) : Inv t where
  rows := fun jcm => absurd mei jcm
  escrowed := fun jcm => absurd mei jcm
  noted := noted
  inEscrow := inEscrow

theorem Inv.same_file (inv : Inv s) (mei : t.protocol = .EBDS) (noted : t.noted = s.noted)
    (file : t.fpValStat = s.fpValStat) : Inv t := by
  refine .of_mei mei ?_ ?_
  · rw [noted, file]
    exact inv.noted
  · rw [file]
    exact inv.inEscrow

theorem Inv.requestStackMei (inv : Inv s) (mei : s.protocol = .EBDS) (dataEvPtr : List UInt8) :
    Inv (s.requestStackMei file dataEvPtr) := by
  have stored := @stored_mei file dataEvPtr
  rw [JcmBillAcceptData.requestStackMei]
  generalize processCurrencyAssignmentMei file dataEvPtr = assignment at stored ⊢
  obtain ⟨amountAux, curIdAux⟩ := assignment
  dsimp only at stored ⊢
  split
  · rename_i positive
    split
    · exact .of_mei mei stored fun _ => positive
    · split
      · exact inv.same_file mei rfl rfl
      · exact inv.same_file mei rfl rfl
  · exact inv.same_file mei rfl rfl

theorem Inv.notifyBillAcceptedMei (inv : Inv s) (mei : s.protocol = .EBDS)
    (dataEvPtr : List UInt8) : Inv (s.notifyBillAcceptedMei file dataEvPtr) := by
  have stored := @stored_mei file dataEvPtr
  rw [JcmBillAcceptData.notifyBillAcceptedMei]
  generalize processCurrencyAssignmentMei file dataEvPtr = assignment at stored ⊢
  obtain ⟨amountAux, curIdAux⟩ := assignment
  dsimp only at stored ⊢
  split
  · exact .of_mei mei stored (by simp [notify, setValStatus])
  · split
    · exact .of_mei mei inv.noted (by simp [notify, setValStatus])
    · exact inv.same_file mei rfl rfl

theorem Inv.powerUpBillAcceptedMei (inv : Inv s) (mei : s.protocol = .EBDS) :
    Inv s.powerUpBillAcceptedMei := by
  rw [JcmBillAcceptData.powerUpBillAcceptedMei]
  dsimp only
  split
  · exact .of_mei mei inv.noted (by simp [setValStatus])
  · exact inv.same_file mei rfl rfl

theorem Inv.of_empty (mei : t.protocol = .EBDS) (noted : t.noted = 0) (qty : Int)
    (file : t.fpValStat = ⟨.zero, qty, 0, 0⟩) : Inv t := by
  refine .of_mei mei ?_ ?_
  · rw [noted, file]
    exact fun _ => ⟨le_refl 0, by simp⟩
  · rw [file]
    exact fun escrow => absurd escrow (by simp)

theorem Inv.resetFileStatusMei (mei : s.protocol = .EBDS) : Inv s.resetFileStatusMei :=
  .of_empty mei rfl 0 rfl

theorem Inv.cleanLastBillFileStatus (inv : Inv s) (mei : s.protocol = .EBDS) :
    Inv s.cleanLastBillFileStatus := by
  rw [JcmBillAcceptData.cleanLastBillFileStatus]
  split
  · exact .of_empty mei rfl s.billDepositQty rfl
  · exact inv

theorem addCurrencyToList_same (amount currencyId : Int) :
    SameBooks s (s.addCurrencyToList amount currencyId) := by
  rw [addCurrencyToList]
  dsimp only
  split
  · exact ⟨rfl, rfl, rfl, rfl, rfl⟩
  · exact ⟨rfl, rfl, rfl, rfl, rfl⟩

theorem Inv.requestNextCurrencyItemMei (inv : Inv s) (mei : s.protocol = .EBDS)
    (dataEvPtr : List UInt8) : Inv (s.requestNextCurrencyItemMei file dataEvPtr) := by
  have jcm : s.protocol ≠ .EBDS → ∀ {P : Prop}, P := fun jcm => absurd mei jcm
  rw [JcmBillAcceptData.requestNextCurrencyItemMei]
  dsimp only
  split
  · exact inv.of_same (addCurrencyToList_same _ _) fun other => jcm other
  · exact inv.same_file mei rfl rfl

theorem Inv.initDataMissingMei (inv : Inv s) (mei : s.protocol = .EBDS) :
    Inv s.initDataMissingMei := by
  rw [JcmBillAcceptData.initDataMissingMei]
  split
  · exact inv.same_file mei rfl rfl
  · exact inv

/-! ### The application -/

theorem Inv.billAcceptorSetStatus (inv : Inv s) (newStatus : JcmStatus) :
    Inv (s.billAcceptorSetStatus newStatus) := by
  rw [JcmBillAcceptData.billAcceptorSetStatus]
  dsimp only
  split
  · split
    · rename_i mei
      exact .resetFileStatusMei mei.1
    · exact inv.of_same ⟨rfl, rfl, rfl, rfl, rfl⟩ inv.rows
  · exact inv

theorem Rows.disable (rows : Rows s) (i : Int) (disabled : Bool) :
    Rows { s with
      convertionTable := Function.update s.convertionTable i
        { s.convertionTable i with disabled := disabled } } := by
  intro k d reported
  have stored := rows k d reported
  dsimp only
  by_cases here : k = i
  · subst here
    rw [update_self]
    exact stored
  · rw [update_of_ne here]
    exact stored

theorem Inv.billAcceptorSetDenomination (inv : Inv s) (amount : Int) (disable : Bool) :
    Inv (s.billAcceptorSetDenomination amount disable) := by
  rw [JcmBillAcceptData.billAcceptorSetDenomination]
  dsimp only
  split
  · exact inv.of_same ⟨rfl, rfl, rfl, rfl, rfl⟩ fun jcm => (inv.rows jcm).disable _ disable
  · exact inv.of_same ⟨rfl, rfl, rfl, rfl, rfl⟩ inv.rows

theorem Inv.newState (inv : Inv s) : Inv (newState s.protocol s.fpValStat s.noted) where
  rows := fun _ _ _ reported => absurd reported (by simp [ConvertionTable.newState])
  escrowed := fun _ _ escrowed _ => absurd escrowed (by simp [ConvertionTable.newState])
  noted := inv.noted
  inEscrow := inv.inEscrow

/-! ### Steps -/

theorem Inv.stepJcm (inv : Inv s) (jcm : s.protocol ≠ .EBDS) (op : Op) :
    Inv (stepJcm file op s) := by
  cases op with
  | currencyAssignment dataEvPtr => exact inv.processCurrencyAssignment dataEvPtr
  | escrow code =>
    rw [ConvertionTable.stepJcm]
    split
    · exact inv.sendStack jcm _
    · exact inv.sendStack jcm _
  | vendValid code =>
    rw [ConvertionTable.stepJcm, sendVendValidNotification]
    split
    · exact (inv.setAmount jcm _).notifyBillAccepted
    · exact inv.notifyBillAccepted
  | updateFirmware => exact inv.of_same ⟨rfl, rfl, rfl, rfl, rfl⟩ inv.rows
  | setStatus newStatus => exact inv.billAcceptorSetStatus newStatus
  | setDenomination amount disable => exact inv.billAcceptorSetDenomination amount disable
  | restart => exact inv.newState
  | _ => exact inv

theorem Inv.stepMei (inv : Inv s) (mei : s.protocol = .EBDS) (op : Op) :
    Inv (stepMei file op s) := by
  cases op with
  | currencyItem dataEvPtr => exact inv.requestNextCurrencyItemMei mei dataEvPtr
  | escrowMei dataEvPtr => exact inv.requestStackMei mei dataEvPtr
  | stackedMei dataEvPtr => exact inv.notifyBillAcceptedMei mei dataEvPtr
  | stackedOnPowerUpMei => exact inv.powerUpBillAcceptedMei mei
  | getLastStackedQty => exact .resetFileStatusMei mei
  | initDataMissing => exact inv.initDataMissingMei mei
  | updateFirmware => exact inv.same_file mei rfl rfl
  | errorState => exact inv.cleanLastBillFileStatus mei
  | setStatus newStatus => exact inv.billAcceptorSetStatus newStatus
  | setDenomination amount disable => exact inv.billAcceptorSetDenomination amount disable
  | restart => exact inv.newState
  | _ => exact inv

theorem Inv.forget (inv : Inv s) : Inv { s with told := [], used := [] } :=
  inv.of_same ⟨rfl, rfl, rfl, rfl, rfl⟩ inv.rows

theorem Inv.step (inv : Inv s) (op : Op) : Inv (step file op s) := by
  rw [ConvertionTable.step]
  dsimp only
  split
  · rename_i mei
    exact inv.forget.stepMei mei op
  · rename_i jcm
    exact inv.forget.stepJcm jcm op

end

/-! ## Each bill is told with its amount -/

/-- The denomination of the bill that a message hands over, if it was reported. -/
def bill (s : JcmBillAcceptData) : Op → Option Int
  | .escrow code => if s.protocol = .EBDS then none else s.reported (s.index code)
  | .vendValid code =>
    if s.protocol = .CCNET then s.reported code.toNat
    else if s.protocol = .ID003 ∧ s.amountChar ≠ -1 then s.escrowed
    else none
  | .escrowMei dataEvPtr =>
    if s.protocol = .EBDS ∧ 0 < denominationMei dataEvPtr then some (denominationMei dataEvPtr)
    else none
  | .stackedMei dataEvPtr =>
    if s.protocol = .EBDS ∧ 0 < denominationMei dataEvPtr then some (denominationMei dataEvPtr)
    else if s.protocol = .EBDS ∧ denominationMei dataEvPtr = 0 ∧
        s.fpValStat.status = .ID003_ESCROW ∧ 0 < s.noted then some s.noted
    else none
  | .getLastStackedQty => if s.protocol = .EBDS ∧ 0 < s.noted then some s.noted else none
  | _ => none

/-- A bill in escrow is not told when it is to be stacked, in a validator that is enabled, or
when it is disabled there.  An MEI validator tells of it only when it is to be validated. -/
def Hands (s : JcmBillAcceptData) (d : Int) : Op → Prop
  | .escrow code =>
    ¬(s.status = .enable ∧ ((s.convertionTable (s.index code)).disabled ∨ 0 < d))
  | .escrowMei _ => s.status = .validateOnly
  | _ => True

instance (s : JcmBillAcceptData) (d : Int) : (op : Op) → Decidable (Hands s d op)
  | .escrow _ => inferInstanceAs (Decidable (¬_))
  | .escrowMei _ => inferInstanceAs (Decidable (_ = _))
  | .currencyAssignment _ | .vendValid _ | .currencyItem _ | .stackedMei _ | .stackedOnPowerUpMei
  | .getLastStackedQty | .initDataMissing | .updateFirmware | .errorState | .setStatus _
  | .setDenomination _ _ | .restart => isTrue trivial

/-- A bill handed over is told with the product of its denomination and `MultipApp`. -/
def Exact (file : List FCurrType) (s : JcmBillAcceptData) (op : Op) : Prop :=
  ∀ d, bill s op = some d →
    (step file op s).told.map Prod.fst = if Hands s d op then [d * MultipApp] else []

/-- The denomination fits in 32 bits, or, where it is read from the file when the bill is
stacked, the product does.  A bill in escrow need not fit where nothing is told of it. -/
def Fits (s : JcmBillAcceptData) (op : Op) : Prop :=
  ∀ d, bill s op = some d →
    match op with
    | .escrow code =>
      d < 2147483648 ∨ s.status = .enable ∧ ((s.convertionTable (s.index code)).disabled ∨
        0 < (s.convertionTable (s.index code)).amount)
    | .escrowMei _ => s.status = .validateOnly → d < 2147483648
    | .stackedMei dataEvPtr =>
      if 0 < denominationMei dataEvPtr then d < 2147483648 else d * MultipApp < 2147483648
    | _ => d < 2147483648

section

variable {file : List FCurrType} {s : JcmBillAcceptData}

theorem step_jcm (jcm : s.protocol ≠ .EBDS) (op : Op) :
    step file op s = stepJcm file op { s with told := [], used := [] } :=
  if_neg jcm

theorem step_mei (mei : s.protocol = .EBDS) (op : Op) :
    step file op s = stepMei file op { s with told := [], used := [] } :=
  if_pos mei

theorem told_iff {x y : Int} : [x] = [y] ↔ x = y := by
  simp

theorem Stored.told_iff {d amount : Int} (stored : Stored d amount) (enabled disabled : Prop)
    [Decidable enabled] [Decidable disabled] (currencyId : Int) :
    (if enabled ∧ (disabled ∨ 0 < amount) then []
        else [(amount * MultipApp, currencyId)]).map Prod.fst =
      (if ¬(enabled ∧ (disabled ∨ 0 < d)) then [d * MultipApp] else []) ↔
    d < 2147483648 ∨ enabled ∧ (disabled ∨ 0 < amount) := by
  have same := stored.2
  have scaled := stored.scaled_iff
  have nonneg := stored.1
  by_cases stacked : enabled ∧ (disabled ∨ 0 < amount)
  · have meant : enabled ∧ (disabled ∨ 0 < d) := by
      refine ⟨stacked.1, ?_⟩
      rcases stacked.2 with disabled | positive
      · exact .inl disabled
      · exact .inr (by omega)
    simp [stacked, meant]
  · by_cases meant : enabled ∧ (disabled ∨ 0 < d)
    · have large : ¬ d < 2147483648 := by
        intro small
        obtain rfl := same.2 small
        exact stacked meant
      rw [if_neg stacked, if_neg (not_not.2 meant)]
      simp [large, stacked]
    · rw [if_neg stacked, if_pos meant]
      simp [scaled, stacked]

theorem exact_escrow (inv : Inv s) (code : UInt8) :
    Exact file s (.escrow code) ↔ Fits s (.escrow code) := by
  refine forall_congr' fun d => forall_congr' fun reported => ?_
  rw [bill] at reported
  split at reported
  · cases reported
  rename_i jcm
  have stored := inv.rows jcm _ d reported
  have escrow : step file (.escrow code) s =
      { s with told := [], used := [] }.sendStack (s.index code) := by
    rw [step_jcm jcm, stepJcm]
    split
    · rename_i ccnet
      have other : s.protocol ≠ .ID003 := by simp [show s.protocol = _ from ccnet]
      rw [sendStackCcnet, JcmBillAcceptData.index, if_neg other]
    · rfl
  rw [escrow, sendStack_told rfl]
  exact stored.told_iff _ _ _

theorem notifyBillAccepted_told (silent : s.told = []) (present : s.amountChar ≠ -1) :
    s.notifyBillAccepted.told = [(s.amountChar, s.currencyId)] := by
  rw [JcmBillAcceptData.notifyBillAccepted, if_pos present]
  simp [notify, silent]

theorem exact_vendValid (inv : Inv s) (code : UInt8) :
    Exact file s (.vendValid code) ↔ Fits s (.vendValid code) := by
  refine forall_congr' fun d => forall_congr' fun reported => ?_
  rw [bill] at reported
  split at reported
  · -- The bill is read from the table again.
    rename_i ccnet
    have jcm : s.protocol ≠ .EBDS := by simp [ccnet]
    have stored := inv.rows jcm _ d reported
    rw [step_jcm jcm, stepJcm, sendVendValidNotification, if_pos ccnet,
      notifyBillAccepted_told rfl (scaled_ne _)]
    exact told_iff.trans stored.scaled_iff
  · split at reported
    · rename_i other present
      have jcm : s.protocol ≠ .EBDS := by simp [present.1]
      obtain ⟨amount, amount_eq, stored⟩ := inv.escrowed jcm d reported present.2
      have told : (step file (.vendValid code) s).told = [(s.amountChar, s.currencyId)] := by
        rw [step_jcm jcm, stepJcm, sendVendValidNotification, if_neg other]
        exact notifyBillAccepted_told (s := { s with told := [], used := [] }) rfl present.2
      rw [told, amount_eq]
      exact told_iff.trans stored.scaled_iff
    · cases reported

theorem exact_escrowMei (dataEvPtr : List UInt8) :
    Exact file s (.escrowMei dataEvPtr) ↔ Fits s (.escrowMei dataEvPtr) := by
  refine forall_congr' fun d => forall_congr' fun reported => ?_
  rw [bill] at reported
  split at reported
  rotate_left
  · cases reported
  rename_i record
  obtain rfl := Option.some.inj reported
  obtain ⟨mei, positive⟩ := record
  have stored := @stored_mei file dataEvPtr positive.le
  rw [step_mei mei, stepMei, requestStackMei]
  generalize processCurrencyAssignmentMei file dataEvPtr = assignment at stored ⊢
  obtain ⟨amountAux, curIdAux⟩ := assignment
  have scaled := stored.scaled_iff
  have same := stored.2
  dsimp only at scaled same ⊢
  by_cases validate : s.status = .validateOnly
  · have other : s.status ≠ .enable := by simp [validate]
    by_cases told : amountAux > 0
    · simp [Hands, look, notify, validate, told, scaled]
    · have large : ¬ denominationMei dataEvPtr < 2147483648 := by omega
      simp [Hands, validate, told, large, look]
  · refine iff_of_true ?_ fun here => absurd here validate
    rw [if_neg (show ¬Hands s _ (.escrowMei dataEvPtr) from validate)]
    split
    · split
      · rfl
      · split
        · rename_i here
          exact absurd here validate
        · rfl
    · rfl

theorem exact_stackedMei (inv : Inv s) (dataEvPtr : List UInt8) :
    Exact file s (.stackedMei dataEvPtr) ↔ Fits s (.stackedMei dataEvPtr) := by
  refine forall_congr' fun d => forall_congr' fun reported => ?_
  have stored := @stored_mei file dataEvPtr
  rw [bill] at reported
  have step_eq (mei : s.protocol = .EBDS) : step file (.stackedMei dataEvPtr) s =
      notifyBillAcceptedMei file dataEvPtr { s with told := [], used := [] } := step_mei mei _
  split at reported
  · rename_i record
    obtain rfl := Option.some.inj reported
    obtain ⟨mei, positive⟩ := record
    rw [step_eq mei, notifyBillAcceptedMei]
    dsimp only
    rw [if_pos positive]
    generalize processCurrencyAssignmentMei file dataEvPtr = assignment at stored ⊢
    obtain ⟨amountAux, curIdAux⟩ := assignment
    have stored := stored positive.le
    dsimp only at stored ⊢
    by_cases told : amountAux * MultipApp > 0
    · rw [if_pos told]
      exact told_iff.trans stored.scaled_iff
    · -- The amount of the file is within 32 bits, and the bill's is not.
      have large : ¬ denominationMei dataEvPtr < 2147483648 := by
        have same := stored.2
        rw [MultipApp] at told
        omega
      refine iff_of_false ?_ large
      rw [if_neg told]
      split
      · intro same
        have below := int32_lt (s.fpValStat.amount * MultipApp)
        have same : int32 (s.fpValStat.amount * MultipApp) =
            denominationMei dataEvPtr * MultipApp := told_iff.1 same
        rw [same, MultipApp] at below
        omega
      · exact fun same => absurd same (by simp [Hands])
  · split at reported
    · rename_i file_says
      obtain rfl := Option.some.inj reported
      obtain ⟨mei, empty, escrow, positive⟩ := file_says
      rw [step_eq mei, notifyBillAcceptedMei]
      dsimp only
      rw [if_neg (show ¬ 0 < denominationMei dataEvPtr by omega)]
      generalize processCurrencyAssignmentMei file dataEvPtr = assignment at stored ⊢
      obtain ⟨amountAux, curIdAux⟩ := assignment
      have stored := stored (by omega)
      have zero : amountAux = 0 := by
        have same := stored.2
        dsimp only at same
        omega
      subst zero
      rw [if_neg (show ¬ (0 : Int) * MultipApp > 0 by simp), if_pos ⟨escrow, inv.inEscrow escrow⟩]
      exact told_iff.trans (inv.noted positive.le).int32_iff
    · cases reported

theorem exact_getLastStackedQty (inv : Inv s) :
    Exact file s .getLastStackedQty ↔ Fits s .getLastStackedQty := by
  refine forall_congr' fun d => forall_congr' fun reported => ?_
  rw [bill] at reported
  split at reported
  · rename_i noted
    obtain rfl := Option.some.inj reported
    rw [step_mei noted.1]
    exact told_iff.trans (inv.noted noted.2.le).scaled_iff
  · cases reported

theorem exact_without {op : Op} (none : bill s op = none) : Exact file s op ↔ Fits s op := by
  rw [Exact, Fits, none]
  exact iff_of_true (fun _ none => absurd none (by simp)) fun _ none => absurd none (by simp)

theorem Inv.exact_iff_fits (inv : Inv s) (op : Op) : Exact file s op ↔ Fits s op := by
  cases op with
  | escrow code => exact exact_escrow inv code
  | vendValid code => exact exact_vendValid inv code
  | escrowMei dataEvPtr => exact exact_escrowMei dataEvPtr
  | stackedMei dataEvPtr => exact exact_stackedMei inv dataEvPtr
  | getLastStackedQty => exact exact_getLastStackedQty inv
  | _ => exact exact_without rfl

end

theorem inv_newState (protocol : Protocol) : Inv (newState protocol .zero 0) where
  rows := fun _ _ _ reported => absurd reported (by simp [newState])
  escrowed := fun _ _ escrowed _ => absurd escrowed (by simp [newState])
  noted := fun _ => ⟨le_refl 0, by simp [newState, TempValInfo.zero]⟩
  inEscrow := fun escrow => absurd escrow (by simp [newState, TempValInfo.zero])

/-- Every bill of a run is told with its amount just in case all of them fit. -/
theorem amounts_exact (file : List FCurrType) (protocol : Protocol) (ops : List Op) :
    Trace.Always (step file) (Exact file) ops (newState protocol .zero 0) ↔
      Trace.Always (step file) Fits ops (newState protocol .zero 0) :=
  Trace.Always.congr_of_invariant Inv (fun inv _ => inv.exact_iff_fits _)
    (fun inv _ _ => inv.step _) (inv_newState protocol) (.unconditional ops _)

/-- Six bytes of status, the record of a bill, and a byte after the exponent. -/
def record (base : List UInt8) (exponent : List UInt8) : List UInt8 :=
  [0x10, 0, 0x10, 0, 0, 0, 1, 0x41, 0x52, 0x53] ++ base ++ [0x2B] ++ exponent ++ [0]

/-- A bill of 500 in escrow, which is then reported as stacked without its record, is told
with less than 71. -/
theorem amounts_inexact :
    ¬∀ (file : List FCurrType) (protocol : Protocol) (ops : List Op),
      Trace.Always (step file) (Exact file) ops (newState protocol .zero 0) := by
  intro exact
  have last := (exact [] .EBDS [.setStatus .enable,
    .escrowMei (record [0x30, 0x30, 0x35] [0x30, 0x32]),
    .stackedMei [0x10, 0, 0x10, 0, 0, 0, 0, 0, 0]]).2.2.1
  have told := last 500 (by decide +kernel)
  exact absurd told (by decide +kernel)

/-! ## Indexes within the table -/

/-- The indexes used were within the table. -/
def Within (s : JcmBillAcceptData) : Prop := ∀ index ∈ s.used, InTable index

/-- Every index used for a message is within the table. -/
def InRange (file : List FCurrType) (s : JcmBillAcceptData) (op : Op) : Prop :=
  Within (step file op s)

/-- The list of an MEI validator has the amount and the currency. -/
def Listed (s : JcmBillAcceptData) (amount currencyId : Int) : Prop :=
  ∃ i < s.denominationsQty, (s.convertionTable i).amount = amount ∧
    (s.convertionTable i).currencyId = currencyId

/-- The codes of ID003 are the letters from `a` to `z`, those of CCNET are below 26, and an MEI
validator reports no new denomination after the 26th. -/
def Indexed (file : List FCurrType) (s : JcmBillAcceptData) : Op → Prop
  | .currencyAssignment dataEvPtr => s.protocol = .ID003 → ∀ k < dataEvPtr.length / 4,
      dataEvPtr.getD (4 * k + 1) 0 ≠ 0 →
        0x61 ≤ dataEvPtr.getD (4 * k) 0 ∧ dataEvPtr.getD (4 * k) 0 ≤ 0x7A
  | .escrow code =>
    (s.protocol = .ID003 → 0x61 ≤ code ∧ code ≤ 0x7A) ∧ (s.protocol = .CCNET → code < 26)
  | .vendValid code => s.protocol = .CCNET → code < 26
  | .currencyItem dataEvPtr => s.protocol = .EBDS →
    let (amountAux, curIdAux) := processCurrencyAssignmentMei file dataEvPtr
    0 < amountAux → Listed s amountAux curIdAux ∨ s.denominationsQty < 26
  | _ => True

section

variable {file : List FCurrType} {s : JcmBillAcceptData} {n : Nat}

variable {code : UInt8}

theorem inTable_letter : InTable ((code.toNat : Int) - 0x61) ↔ 0x61 ≤ code ∧ code ≤ 0x7A := by
  rw [InTable, UInt8.le_iff_toNat_le, UInt8.le_iff_toNat_le]
  have first : (0x61 : UInt8).toNat = 97 := rfl
  have last : (0x7A : UInt8).toNat = 122 := rfl
  omega

theorem inTable_byte : InTable (((code - 0x61).toNat : Nat) : Int) ↔ 0x61 ≤ code ∧ code ≤ 0x7A := by
  rw [InTable, UInt8.le_iff_toNat_le, UInt8.le_iff_toNat_le, UInt8.toNat_sub]
  have first : (0x61 : UInt8).toNat = 97 := rfl
  have last : (0x7A : UInt8).toNat = 122 := rfl
  have byte := code.toNat_lt
  omega

theorem inTable_code : InTable (code.toNat : Int) ↔ code < 26 := by
  rw [InTable, UInt8.lt_iff_toNat_lt]
  have qty : (26 : UInt8).toNat = 26 := rfl
  omega

/-! ### ID003 and CCNET -/

/-- Besides, the list of an MEI validator is no longer than a bound. -/
def Fine (n : Nat) (s : JcmBillAcceptData) : Prop := Within s ∧ s.denominationsQty ≤ n

theorem fine_use (s : JcmBillAcceptData) (index : Int) :
    Fine n (s.use index) ↔ Fine n s ∧ InTable index := by
  simp [Fine, Within, JcmBillAcceptData.use, or_imp, forall_and, and_right_comm]

theorem fine_loadJcm (left : Nat) (table : List UInt8) (s : JcmBillAcceptData) :
    Fine n (loadJcm file left table s) ↔
      Fine n s ∧ ∀ k < left, table.getD (4 * k + 1) 0 ≠ 0 →
        0x61 ≤ table.getD (4 * k) 0 ∧ table.getD (4 * k) 0 ≤ 0x7A := by
  induction left generalizing table s with
  | zero => simp [loadJcm]
  | succ left ih =>
    have rest (at_ : Nat) : (table.drop 4).getD at_ 0 = table.getD (at_ + 4) 0 := by
      rw [getD_eq_getElem?_getD, getD_eq_getElem?_getD, List.getElem?_drop, Nat.add_comm]
    have first : Fine n (if table.getD 1 0 ≠ 0 then
        s.assign ((table.getD 0 0).toNat - 0x61) (table.getD 2 0).toNat (table.getD 3 0).toNat
          (getCurrencyIdFromJcm file (table.getD 1 0)) else s) ↔
        Fine n s ∧ (table.getD 1 0 ≠ 0 → 0x61 ≤ table.getD 0 0 ∧ table.getD 0 0 ≤ 0x7A) := by
      split
      · rename_i present
        refine (fine_use s _).trans ?_
        rw [inTable_letter]
        exact and_congr_right fun _ => ⟨fun letter _ => letter, fun letter => letter present⟩
      · rename_i absent
        exact (and_iff_left fun present => absurd present absent).symm
    rw [loadJcm, ih, first, and_assoc]
    refine and_congr_right fun _ => ?_
    simp only [rest]
    constructor
    · intro both k within
      cases k with
      | zero => exact both.1
      | succ k => exact both.2 k (by omega)
    · intro all
      exact ⟨all 0 (by omega), fun k within => all (k + 1) (by omega)⟩

theorem fine_loadCcnet (left i : Nat) (table : List UInt8) (rows : i + left ≤ 26)
    (fine : Fine n s) : Fine n (loadCcnet file left i table s) := by
  induction left generalizing i table s with
  | zero => exact fine
  | succ left ih =>
    refine ih (i + 1) (table.drop 5) (by omega) ((fine_use _ _).2 ⟨fine, ?_⟩)
    rw [InTable]
    omega

theorem fine_notifyBillAccepted : Fine n s.notifyBillAccepted ↔ Fine n s := by
  rw [JcmBillAcceptData.notifyBillAccepted]
  split
  · exact Iff.rfl
  · exact Iff.rfl

theorem fine_sendStack (index : Int) :
    Fine n (s.sendStack index) ↔ Fine n s ∧ InTable index := by
  have set : Fine n (s.setAmount index) ↔ Fine n s ∧ InTable index := fine_use s index
  rw [JcmBillAcceptData.sendStack]
  dsimp only
  split
  · exact set
  · rw [fine_notifyBillAccepted]
    split
    · exact set
    · exact set

/-! ### MEI -/

theorem search_spec (table : Int → JCMDenomination) (found : JCMDenomination → Bool)
    (left i : Nat) :
    search table found left i ≤ i + left ∧
      (search table found left i = i + left ↔ ∀ k < left, found (table (i + k : Nat)) = false) := by
  induction left generalizing i with
  | zero => simp [search]
  | succ left ih =>
    obtain ⟨bound, ends⟩ := ih (i + 1)
    rw [search]
    by_cases here : found (table i)
    · rw [if_pos here]
      refine ⟨by omega, iff_of_false (by omega) fun all => ?_⟩
      have first := all 0 (by omega)
      rw [Nat.add_zero, here] at first
      cases first
    · rw [if_neg here]
      refine ⟨by omega, ?_⟩
      rw [show i + (left + 1) = i + 1 + left by omega, ends]
      constructor
      · intro later k within
        cases k with
        | zero => simpa using here
        | succ k =>
          rw [show i + (k + 1) = i + 1 + k by omega]
          exact later k (by omega)
      · intro all k within
        rw [show i + 1 + k = i + (k + 1) by omega]
        exact all (k + 1) (by omega)

theorem searchBill_end_iff (amount currencyId : Int) :
    s.searchBill amount currencyId = s.denominationsQty ↔ ¬Listed s amount currencyId := by
  have ends := (search_spec s.convertionTable
    (fun d => d.amount = amount ∧ d.currencyId = currencyId) s.denominationsQty 0).2
  rw [Nat.zero_add] at ends
  rw [searchBill, ends, Listed]
  simp

theorem fine_look (fine : Fine n s) (i qty : Nat) (small : qty ≤ 26) : Fine n (s.look i qty) := by
  refine ⟨fun index used => ?_, fine.2⟩
  rcases mem_append.1 used with before | looked
  · exact fine.1 index before
  · obtain ⟨row, row_mem, rfl⟩ := mem_map.1 looked
    have below := mem_range.1 row_mem
    exact ⟨Int.natCast_nonneg row, by omega⟩

theorem within_addCurrencyToList (fine : Fine 26 s) (amount currencyId : Int) :
    Within (s.addCurrencyToList amount currencyId) ↔
      Listed s amount currencyId ∨ s.denominationsQty < 26 := by
  have looked := fine_look fine (s.searchBill amount currencyId) _ fine.2
  rw [addCurrencyToList]
  dsimp only
  split
  · rename_i new
    have new : s.searchBill amount currencyId = s.denominationsQty := new
    have used := fine_use (n := 26) (s.look (s.searchBill amount currencyId) s.denominationsQty)
      (s.searchBill amount currencyId)
    have within := used.trans (and_iff_right looked)
    rw [or_iff_right (searchBill_end_iff _ _ |>.1 new)]
    refine (and_iff_left fine.2).symm.trans (within.trans ?_)
    rw [new, InTable]
    omega
  · rename_i old
    exact iff_of_true looked.1 (.inl (not_not.1 fun absent =>
      old ((searchBill_end_iff _ _).2 absent)))

theorem addCurrencyToList_qty (amount currencyId : Int) (small : s.denominationsQty ≤ 26)
    (room : Listed s amount currencyId ∨ s.denominationsQty < 26) :
    (s.addCurrencyToList amount currencyId).denominationsQty ≤ 26 := by
  rw [addCurrencyToList]
  dsimp only
  split
  · rename_i new
    have new := (searchBill_end_iff _ _).1 new
    exact room.resolve_left new
  · exact small

/-! ### Steps -/

theorem fine_billAcceptorSetDenomination (fine : Fine n s) (amount : Int) (disable : Bool) :
    Fine n (s.billAcceptorSetDenomination amount disable) := by
  rw [JcmBillAcceptData.billAcceptorSetDenomination]
  dsimp only
  split
  · exact fine_look fine _ 8 (by decide)
  · exact fine_look fine _ 8 (by decide)

theorem fine_billAcceptorSetStatus (fine : Fine n s) (newStatus : JcmStatus) :
    Fine n (s.billAcceptorSetStatus newStatus) := by
  rw [JcmBillAcceptData.billAcceptorSetStatus]
  dsimp only
  split
  · split
    · exact fine
    · exact fine
  · exact fine

theorem fine_newState (protocol : Protocol) (fpValStat : TempValInfo) (noted : Int) :
    Fine n (newState protocol fpValStat noted) := by
  refine ⟨fun index used => ?_, Nat.zero_le n⟩
  cases used

theorem fine_processCurrencyAssignment (fine : Fine n s) (dataEvPtr : List UInt8) :
    Fine n (s.processCurrencyAssignment file dataEvPtr) ↔
      Indexed file s (.currencyAssignment dataEvPtr) := by
  have cleared : Fine n s.clearTable := fine
  have loaded (t : JcmBillAcceptData) : Fine n { t with billTableLoaded := true } ↔ Fine n t :=
    Iff.rfl
  rw [JcmBillAcceptData.processCurrencyAssignment, Indexed]
  dsimp only
  split
  · rename_i jcm
    rw [loaded, fine_loadJcm, and_iff_right cleared]
    exact ⟨fun letters _ => letters, fun letters => letters jcm⟩
  · rename_i other
    refine iff_of_true ?_ fun jcm => absurd jcm other
    split
    · exact (loaded _).2 (fine_loadCcnet 24 0 dataEvPtr (by decide) cleared)
    · exact cleared

theorem fine_stepJcm (fine : Fine n s) (jcm : s.protocol ≠ .EBDS) (op : Op) :
    Fine n (stepJcm file op s) ↔ Indexed file s op := by
  cases op with
  | currencyAssignment dataEvPtr => exact fine_processCurrencyAssignment fine dataEvPtr
  | escrow code =>
    rw [stepJcm, Indexed]
    split
    · rename_i ccnet
      rw [sendStackCcnet, fine_sendStack, inTable_code, and_iff_right fine]
      simp [ccnet]
    · rename_i other
      have id003 : s.protocol = .ID003 := by
        cases here : s.protocol <;> simp_all
      rw [sendStackID003, fine_sendStack, JcmBillAcceptData.index, if_pos id003, inTable_byte,
        and_iff_right fine]
      simp [id003]
  | vendValid code =>
    rw [stepJcm, Indexed, sendVendValidNotification, fine_notifyBillAccepted]
    split
    · rename_i ccnet
      refine (fine_use s code.toNat).trans ?_
      rw [inTable_code, and_iff_right fine]
      simp [ccnet]
    · rename_i other
      exact iff_of_true fine fun ccnet => absurd ccnet other
  | currencyItem dataEvPtr => exact iff_of_true fine fun mei => absurd mei jcm
  | setStatus newStatus => exact iff_of_true (fine_billAcceptorSetStatus fine _) trivial
  | setDenomination amount disable =>
    exact iff_of_true (fine_billAcceptorSetDenomination fine _ _) trivial
  | restart => exact iff_of_true (fine_newState _ _ _) trivial
  | _ => exact iff_of_true fine trivial

theorem fine_requestStackMei (fine : Fine 26 s) (dataEvPtr : List UInt8) :
    Fine 26 (s.requestStackMei file dataEvPtr) := by
  have looked (i : Nat) := fine_look fine i _ fine.2
  rw [requestStackMei]
  dsimp only
  split
  · split
    · exact looked _
    · split
      · exact looked _
      · exact looked _
  · exact looked _

theorem fine_notifyBillAcceptedMei (fine : Fine n s) (dataEvPtr : List UInt8) :
    Fine n (s.notifyBillAcceptedMei file dataEvPtr) := by
  rw [notifyBillAcceptedMei]
  dsimp only
  split
  · exact fine
  · split
    · exact fine
    · exact fine

theorem fine_stepMei (fine : Fine 26 s) {op : Op} (other : ∀ data, op ≠ .currencyItem data) :
    Fine 26 (stepMei file op s) := by
  cases op with
  | currencyItem data => exact absurd rfl (other data)
  | escrowMei dataEvPtr => exact fine_requestStackMei fine _
  | stackedMei dataEvPtr => exact fine_notifyBillAcceptedMei fine _
  | stackedOnPowerUpMei =>
    rw [stepMei, powerUpBillAcceptedMei]
    dsimp only
    split
    · exact fine
    · exact fine
  | initDataMissing =>
    rw [stepMei, initDataMissingMei]
    split
    · exact ⟨fine.1, Nat.zero_le _⟩
    · exact fine
  | errorState =>
    rw [stepMei, cleanLastBillFileStatus]
    split
    · exact fine
    · exact fine
  | setStatus newStatus => exact fine_billAcceptorSetStatus fine _
  | setDenomination amount disable => exact fine_billAcceptorSetDenomination fine _ _
  | restart => exact fine_newState _ _ _
  | _ => exact fine

theorem indexed_mei (mei : s.protocol = .EBDS) {op : Op} (other : ∀ data, op ≠ .currencyItem data) :
    Indexed file s op := by
  cases op with
  | currencyItem data => exact absurd rfl (other data)
  | escrow code => simp [Indexed, mei]
  | vendValid code => simp [Indexed, mei]
  | currencyAssignment dataEvPtr => simp [Indexed, mei]
  | _ => trivial

/-- A message uses indexes within the table just in case it meets the condition, and then
keeps the list within the table. -/
theorem step_spec (small : s.denominationsQty ≤ 26) (op : Op) :
    (InRange file s op ↔ Indexed file s op) ∧
      (Indexed file s op → (step file op s).denominationsQty ≤ 26) := by
  have silent : Within { s with told := [], used := [] } := by
    intro index used
    cases used
  rw [InRange, step]
  dsimp only
  split
  · rename_i mei
    have fine : Fine 26 { s with told := [], used := [] } := ⟨silent, small⟩
    by_cases item : ∃ data, op = .currencyItem data
    · obtain ⟨data, rfl⟩ := item
      rw [stepMei, Indexed, requestNextCurrencyItemMei]
      dsimp only
      split
      · rename_i positive
        refine ⟨(within_addCurrencyToList fine _ _).trans ⟨fun room _ _ => room, fun room =>
          room mei positive⟩, fun room => addCurrencyToList_qty _ _ small (room mei positive)⟩
      · rename_i last
        exact ⟨iff_of_true silent fun _ positive => absurd positive last, fun _ => small⟩
    · have other : ∀ data, op ≠ .currencyItem data := fun data same => item ⟨data, same⟩
      have next := @fine_stepMei file _ fine op other
      exact ⟨iff_of_true next.1 (indexed_mei mei other), fun _ => next.2⟩
  · rename_i jcm
    constructor
    · have fine : Fine (max s.denominationsQty _) { s with told := [], used := [] } :=
        ⟨silent, le_max_left _ (stepJcm file op { s with told := [], used := [] }).denominationsQty⟩
      have same := @fine_stepJcm file _ _ fine jcm op
      exact ⟨fun within => same.1 ⟨within, le_max_right _ _⟩, fun indexed => (same.2 indexed).1⟩
    · exact fun indexed => ((fine_stepJcm ⟨silent, small⟩ jcm op).2 indexed).2

end

/-- In a run all indexes are within the table just in case every message meets the
condition. -/
theorem indexes_inRange (file : List FCurrType) (protocol : Protocol) (ops : List Op) :
    Trace.Always (step file) (InRange file) ops (newState protocol .zero 0) ↔
      Trace.Always (step file) (Indexed file) ops (newState protocol .zero 0) :=
  Trace.Always.congr_of_invariant (fun s => s.denominationsQty ≤ 26)
    (fun small _ => (step_spec small _).1) (fun small _ => (step_spec small _).2)
    (Nat.zero_le _) (.unconditional ops _)

/-- A validator in ID003 that reports a denomination with the code behind `z` makes the driver
write behind the table. -/
theorem indexes_outside :
    ¬∀ (file : List FCurrType) (protocol : Protocol) (ops : List Op),
      Trace.Always (step file) (InRange file) ops (newState protocol .zero 0) := by
  intro inRange
  have first := (inRange [] .ID003 [.currencyAssignment [0x7B, 1, 5, 1]]).1
  exact absurd (first 26 (by decide +kernel)) (by decide)

end CimArm.ConvertionTable
