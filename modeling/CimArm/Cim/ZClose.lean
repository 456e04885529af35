import CimArm.Cim.Extraction
import CimArm.Dao.DepositRecords

/-!
# Closes

A `ZClose` totals the deposits of a day (`endOfDay`, the Z close) or those of one cash
(`cashClose`, the X close).  Values are added to it in two ways: from a deposit that
has just ended, and from the rows of a stored deposit when closes are loaded
(`updateDepData`, `updateDepDetData`).  What one value does to the lists of a close
is `insertZDetail`, `insertCashDetail` and `addSummary`; the values of a deposit and those of
its rows are the same where the deposit fits its rows.
-/

namespace CimArm

open GroupedInsert

/-- `CloseType` -/
inductive CloseType
  | endOfDay | cashClose
  deriving DecidableEq, Repr

structure ZCloseDetail : Type where
  depositValueType : DepositValueType
  amount : Int
  qty : Int
  currency : Option Currency
  acceptorSettings : Option AcceptorSettings
  user : Option User
  cimCash : Option CimCash
  door : Option Door
  deriving DecidableEq, Repr

/-- The summary of a cash reference in a close, with its validated and manual parts. -/
structure ZCloseSummary : Type extends CashReferenceSummary where
  valAmount : Int
  manualAmount : Int
  manualQty : Int
  deriving DecidableEq, Repr

structure ZClose : Type where
  number : Nat
  user : Option User
  fromDepositNumber : Nat
  toDepositNumber : Nat
  openTime : Nat
  closeTime : Nat
  zCloseDetails : List ZCloseDetail
  cashReferenceSummaries : List ZCloseSummary
  rejectedQty : Int
  closeType : CloseType
  cimCash : Option CimCash
  fromCloseNumber : Nat
  toCloseNumber : Nat
  parentNumber : Nat
  parentCloseTime : Nat
  deriving DecidableEq, Repr

/-- The arguments of one `addZCloseDetail` message. -/
structure ZCall : Type where
  user : Option User
  door : Option Door
  cimCash : Option CimCash
  cashReference : Option CashReference
  acceptorSettings : Option AcceptorSettings
  depositValueType : DepositValueType
  currency : Option Currency
  qty : Int
  amount : Int
  deriving DecidableEq, Repr

/-- The arguments of one `addCashCloseDetail` message. -/
structure CashCall : Type where
  cimCash : Option CimCash
  acceptorSettings : Option AcceptorSettings
  depositValueType : DepositValueType
  currency : Option Currency
  qty : Int
  amount : Int
  deriving DecidableEq, Repr

namespace ZCloseDetail

def addQty (self : ZCloseDetail) (aQty : Int) : ZCloseDetail := { self with qty := self.qty + aQty }

def setAmount (self : ZCloseDetail) (anAmount : Int) : ZCloseDetail :=
  { self with amount := anAmount }

/-- Validated cash totals its unit amount times the quantity; every other value
type totals its amount. -/
def getTotalAmount (self : ZCloseDetail) : Int :=
  if self.depositValueType = .validatedCash then self.amount * self.qty else self.amount

end ZCloseDetail

/-- The detail a value creates when it is not merged into an existing one. -/
def ZCall.detail (c : ZCall) : ZCloseDetail where
  depositValueType := c.depositValueType
  amount := c.amount
  qty := c.qty
  currency := c.currency
  acceptorSettings := c.acceptorSettings
  user := c.user
  cimCash := c.cimCash
  door := c.door

/-! ## The rows of a stored deposit -/

/-- The cash reference of a deposit row; 0 stands for none. -/
def rowReference (registry : Registry) (referenceId : Int) : Option CashReference :=
  if referenceId ≠ 0 then registry.getCashReferenceById referenceId else none

/-- What a detail row of a deposit row adds to a Z close. -/
def ZCall.ofRecords (registry : Registry) (aDepositRS : DepositRecord)
    (aDepositDetailRS : DepositDetailRecord) : ZCall where
  user := registry.getUserFromCompleteList aDepositRS.userId
  door := registry.getDoorById aDepositRS.doorId
  cimCash := registry.getCimCashById aDepositRS.cimCashId
  cashReference := rowReference registry aDepositRS.referenceId
  acceptorSettings := registry.getAcceptorSettingsById aDepositDetailRS.acceptorId
  depositValueType := aDepositDetailRS.depositValueType
  currency := registry.getCurrencyById aDepositDetailRS.currencyId
  qty := aDepositDetailRS.qty
  amount := decimalToMoney aDepositDetailRS.amount

/-- The total of a detail row. -/
def rowTotal (aDepositDetailRS : DepositDetailRecord) : Int :=
  if aDepositDetailRS.depositValueType = .validatedCash then
    decimalToMoney aDepositDetailRS.amount * aDepositDetailRS.qty
  else decimalToMoney aDepositDetailRS.amount

/-- What a detail row adds to the close of a cash under a value type. -/
def CashCall.ofRecord (registry : Registry) (cimCash : Option CimCash)
    (aDepositValueType : DepositValueType) (aDepositDetailRS : DepositDetailRecord) :
    CashCall where
  cimCash := cimCash
  acceptorSettings := registry.getAcceptorSettingsById aDepositDetailRS.acceptorId
  depositValueType := aDepositValueType
  currency := registry.getCurrencyById aDepositDetailRS.currencyId
  qty := aDepositDetailRS.qty
  amount := rowTotal aDepositDetailRS

namespace ZClose

/-- A close as `clear` leaves it, and as a new one is. -/
def new : ZClose where
  number := 0
  user := none
  fromDepositNumber := 0
  toDepositNumber := 0
  openTime := 0
  closeTime := 0
  zCloseDetails := []
  cashReferenceSummaries := []
  rejectedQty := 0
  closeType := .endOfDay
  cimCash := none
  fromCloseNumber := 0
  toCloseNumber := 0
  parentNumber := 0
  parentCloseTime := 0

def addRejectedQty (self : ZClose) (aRejectedQty : Int) : ZClose :=
  { self with rejectedQty := self.rejectedQty + aRejectedQty }

/-! ## Adding values -/

/-- The search loop of `addCashReferenceSummary`, from position `i` on. -/
def searchSummary (aCashReference : CashReference) (aCurrency : Option Currency) :
    List ZCloseSummary → Nat → Bool → Slot ZCloseSummary
  | [], _, _ => .atEnd
  | summary :: rest, i, inCashReference =>
    if summary.cashReference = aCashReference then
      if summary.currency = aCurrency then .found i summary
      else searchSummary aCashReference aCurrency rest (i + 1) true
    else if inCashReference then .insertAt i
    else searchSummary aCashReference aCurrency rest (i + 1) inCashReference

/-- The amount of a summary line split over its validated and manual parts. -/
def mergeSummary (anAmount : Int) (aDepositValueType : DepositValueType)
    (summary : ZCloseSummary) : ZCloseSummary :=
  if aDepositValueType = .validatedCash then
    { summary with amount := summary.amount + anAmount, valAmount := summary.valAmount + anAmount }
  else
    { summary with
      amount := summary.amount + anAmount
      manualAmount := summary.manualAmount + anAmount
      manualQty := summary.manualQty + 1 }

/-- The summary line of a reference before any amount is added to it. -/
def newSummary (aCashReference : CashReference) (aCurrency : Option Currency) : ZCloseSummary where
  cashReference := aCashReference
  currency := aCurrency
  amount := 0
  depositValueType := .undefined
  depositType := .undefined
  valAmount := 0
  manualAmount := 0
  manualQty := 0

/-- The summaries of a close after an amount is added to those of a reference. -/
def insertSummary (aCashReference : CashReference) (aCurrency : Option Currency) (anAmount : Int)
    (aDepositValueType : DepositValueType) (summaries : List ZCloseSummary) :
    List ZCloseSummary :=
  let summary := mergeSummary anAmount aDepositValueType (newSummary aCashReference aCurrency)
  match searchSummary aCashReference aCurrency summaries 0 false with
  | .found i line => summaries.set i (mergeSummary anAmount aDepositValueType line)
  | .insertAt index => summaries.insertIdx index summary
  | .atEnd => summaries ++ [summary]

/-- The search loop of `addCashCloseDetail`, from position `i` on. -/
def searchCashDetail (c : CashCall) : List ZCloseDetail → Nat → Slot ZCloseDetail
  | [], _ => .atEnd
  | zCloseDetail :: rest, i =>
    if zCloseDetail.cimCash ≠ c.cimCash then searchCashDetail c rest (i + 1)
    else if zCloseDetail.acceptorSettings ≠ c.acceptorSettings then searchCashDetail c rest (i + 1)
    else if zCloseDetail.depositValueType ≠ c.depositValueType then searchCashDetail c rest (i + 1)
    else if zCloseDetail.currency = c.currency then .found i zCloseDetail
    else searchCashDetail c rest (i + 1)

/-- The details of a cash close after a value is added to them. -/
def insertCashDetail (details : List ZCloseDetail) (c : CashCall) : List ZCloseDetail :=
  match searchCashDetail c details 0 with
  | .found i detail => details.set i ((detail.setAmount (detail.amount + c.amount)).addQty c.qty)
  | _ => details ++ [{
      depositValueType := c.depositValueType, amount := c.amount, qty := c.qty
      currency := c.currency, acceptorSettings := c.acceptorSettings, user := none
      cimCash := c.cimCash, door := none }]

def addCashCloseDetail (self : ZClose) (c : CashCall) : ZClose :=
  { self with zCloseDetails := insertCashDetail self.zCloseDetails c }

/-- The search loop of `addZCloseDetail`, from position `i` on. -/
def searchZDetail (c : ZCall) : List ZCloseDetail → Nat → Bool → Slot ZCloseDetail
  | [], _, _ => .atEnd
  | zCloseDetail :: rest, i, inCurrency =>
    if zCloseDetail.user ≠ c.user then searchZDetail c rest (i + 1) inCurrency
    else if zCloseDetail.door ≠ c.door then searchZDetail c rest (i + 1) inCurrency
    else if zCloseDetail.cimCash ≠ c.cimCash then searchZDetail c rest (i + 1) inCurrency
    else if zCloseDetail.acceptorSettings ≠ c.acceptorSettings then
      searchZDetail c rest (i + 1) inCurrency
    else if zCloseDetail.depositValueType ≠ c.depositValueType then
      searchZDetail c rest (i + 1) inCurrency
    else if zCloseDetail.currency ≠ c.currency ∧ inCurrency then .insertAt i
    else if zCloseDetail.currency = c.currency then
      -- a manual cash is totalled per currency, not per denomination
      if isManual c.cimCash then .found i zCloseDetail
      else if zCloseDetail.amount = c.amount then .found i zCloseDetail
      else if zCloseDetail.amount > c.amount then .insertAt i
      else searchZDetail c rest (i + 1) true
    else searchZDetail c rest (i + 1) inCurrency

/-- The detail a value leaves in place of one its search found. -/
def mergeZDetail (c : ZCall) (detail : ZCloseDetail) : ZCloseDetail :=
  if isManual c.cimCash then (detail.setAmount (detail.amount + c.amount)).addQty c.qty
  else detail.addQty c.qty

/-- The details of a Z close after a value is added to them. -/
def insertZDetail (details : List ZCloseDetail) (c : ZCall) : List ZCloseDetail :=
  match searchZDetail c details 0 false with
  | .found i detail => details.set i (mergeZDetail c detail)
  | .insertAt index => details.insertIdx index c.detail
  | .atEnd => details ++ [c.detail]

/-- The summaries of a Z close after a value: a value with a reference adds its total. -/
def addSummary (summaries : List ZCloseSummary) (c : ZCall) : List ZCloseSummary :=
  match c.cashReference with
  | some aCashReference =>
    let amount := if c.depositValueType ≠ .validatedCash then c.amount else c.amount * c.qty
    insertSummary aCashReference c.currency amount c.depositValueType summaries
  | none => summaries

def addZCloseDetail (self : ZClose) (c : ZCall) : ZClose :=
  { self with
    cashReferenceSummaries := addSummary self.cashReferenceSummaries c
    zCloseDetails := insertZDetail self.zCloseDetails c }

/-! ## Totals -/

def getQty (self : ZClose) : Int := (self.zCloseDetails.map (·.qty)).sum

def getTotalAmount (self : ZClose) : Int := (self.zCloseDetails.map (·.getTotalAmount)).sum

def getCashCloseTotalAmount (self : ZClose) : Int := (self.zCloseDetails.map (·.amount)).sum

/-! ## Replaying stored deposits -/

/-- Take a deposit row into the range of a close. -/
def updateDepData (self : ZClose) (aDepositRS : DepositRecord) : ZClose :=
  let number := aDepositRS.number
  if number < self.fromDepositNumber then self
  else
    let taken := { self with
      fromDepositNumber := if self.fromDepositNumber = 0 then number else self.fromDepositNumber
      toDepositNumber := number }
    match self.closeType with
    | .endOfDay => taken
    | .cashClose =>
      if aDepositRS.cimCashId = idOf (·.cimCashId) self.cimCash then taken else self

/-- Add a detail row of a deposit row. A cash close files every value as manual cash. -/
def updateDepDetData (registry : Registry) (self : ZClose) (aDepositRS : DepositRecord)
    (aDepositDetailRS : DepositDetailRecord) : ZClose :=
  if aDepositRS.number < self.fromDepositNumber then self
  else
    match self.closeType with
    | .endOfDay => self.addZCloseDetail (.ofRecords registry aDepositRS aDepositDetailRS)
    | .cashClose =>
      let cimCash := registry.getCimCashById aDepositRS.cimCashId
      if idOf (·.cimCashId) cimCash ≠ idOf (·.cimCashId) self.cimCash then self
      else self.addCashCloseDetail (.ofRecord registry cimCash .manualCash aDepositDetailRS)

end ZClose

end CimArm
