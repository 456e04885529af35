import CimArm.Cim.Defs
import CimArm.Lib.GroupedInsert
import Mathlib.Algebra.Order.Ring.Int
import Mathlib.Tactic.Ring

/-!
# Extractions, their details and cash-reference summaries

`Extraction.addExtractionDetail` totals an arriving value by denomination when
its cash is automatic and by currency when its cash is manual, and adds it to the
summary of its cash reference.  Both lists are kept by the grouped scan of
`CimArm.Lib.GroupedInsert`: the details under the group (acceptor, value type,
cash), the summaries under the cash reference.
-/

namespace CimArm

open GroupedInsert List

structure ExtractionDetail : Type where
  depositValueType : DepositValueType
  amount : Int
  qty : Int
  currency : Option Currency
  acceptorSettings : Option AcceptorSettings
  cimCash : Option CimCash
  deriving DecidableEq, Repr

structure CashReferenceSummary : Type where
  cashReference : CashReference
  currency : Option Currency
  amount : Int
  depositValueType : DepositValueType
  depositType : DepositType
  deriving DecidableEq, Repr

structure Extraction : Type where
  operator : Option User
  collector : Option User
  number : Nat
  dateTime : Nat
  fromDepositNumber : Nat
  toDepositNumber : Nat
  rejectedQty : Int
  door : Option Door
  currentManualDepositCount : Nat
  hasEmitStackerWarning : Bool
  hasEmitStackerFull : Bool
  extractionDetails : List ExtractionDetail
  cashReferenceSummaries : List CashReferenceSummary
  deriving DecidableEq, Repr

/-- The arguments of one `addExtractionDetail` message. -/
structure ExtractionCall : Type where
  cimCash : Option CimCash
  acceptorSettings : Option AcceptorSettings
  depositValueType : DepositValueType
  currency : Option Currency
  qty : Int
  amount : Int
  cashReference : Option CashReference
  deriving DecidableEq, Repr

/-- A cash that takes manual deposits; a null cash answers no type. -/
def isManual (cimCash : Option CimCash) : Bool :=
  match cimCash with
  | some cash => cash.depositType = .manual
  | none => false

namespace ExtractionDetail

def addQty (self : ExtractionDetail) (aQty : Int) : ExtractionDetail :=
  { self with qty := self.qty + aQty }

def setAmount (self : ExtractionDetail) (anAmount : Int) : ExtractionDetail :=
  { self with amount := anAmount }

/-- Validated cash totals its unit amount times the quantity; every other value
type totals its amount. -/
def getTotalAmount (self : ExtractionDetail) : Int :=
  if self.depositValueType = .validatedCash then self.amount * self.qty else self.amount

/-- The group of a detail: its acceptor, value type and cash. -/
def group (self : ExtractionDetail) :
    Option AcceptorSettings × DepositValueType × Option CimCash :=
  (self.acceptorSettings, self.depositValueType, self.cimCash)

/-- The key under which quantities and amounts are totalled. -/
def key (self : ExtractionDetail) :
    Option AcceptorSettings × DepositValueType × Option CimCash × Option Currency :=
  (self.acceptorSettings, self.depositValueType, self.cimCash, self.currency)

/-- What a detail stands for: the amount accumulated by a manual cash, the unit
amount times the quantity of any other. -/
def total (self : ExtractionDetail) : Int :=
  if isManual self.cimCash then self.amount else self.amount * self.qty

/-- The order of the details of one group and currency: none for a manual cash,
which has only one, ascending unit amounts for any other. -/
def Before (x y : ExtractionDetail) : Prop :=
  isManual x.cimCash = false ∧ isManual y.cimCash = false ∧ x.amount < y.amount

end ExtractionDetail

/-- The detail a call creates when it is not merged into an existing one. -/
def ExtractionCall.detail (c : ExtractionCall) : ExtractionDetail where
  depositValueType := c.depositValueType
  amount := c.amount
  qty := c.qty
  currency := c.currency
  acceptorSettings := c.acceptorSettings
  cimCash := c.cimCash

/-- What a summary line is kept for. -/
abbrev SummaryKey := CashReference × DepositType × DepositValueType × Option Currency

def CashReferenceSummary.key (self : CashReferenceSummary) : SummaryKey :=
  (self.cashReference, self.depositType, self.depositValueType, self.currency)

/-- What a call adds to the summary of its reference: the amount of a validated
value is per unit, that of any other value is already the total. -/
def ExtractionCall.summaryAmount (c : ExtractionCall) : Int :=
  if c.depositValueType ≠ .validatedCash then c.amount else c.amount * c.qty

/-- The summary files a value under automatic deposits when a validator took it. -/
def ExtractionCall.summaryDepositType (c : ExtractionCall) : DepositType :=
  match c.acceptorSettings with
  | some settings => if settings.acceptorType = .validator then .auto else .manual
  | none => .manual

/-- The summary line a call asks for under a reference. -/
def ExtractionCall.summaryOf (c : ExtractionCall) (aCashReference : CashReference) :
    CashReferenceSummary where
  cashReference := aCashReference
  currency := c.currency
  amount := c.summaryAmount
  depositValueType := c.depositValueType
  depositType := c.summaryDepositType

/-- The summary line of a call, if it has a reference. -/
def ExtractionCall.summary (c : ExtractionCall) : Option CashReferenceSummary :=
  c.cashReference.map c.summaryOf

namespace Extraction

/-- Empty an extraction; it stays that of its door. -/
def clear (self : Extraction) : Extraction where
  operator := none
  collector := none
  number := 0
  dateTime := 0
  fromDepositNumber := 0
  toDepositNumber := 0
  rejectedQty := 0
  door := self.door
  currentManualDepositCount := 0
  hasEmitStackerWarning := false
  hasEmitStackerFull := false
  extractionDetails := []
  cashReferenceSummaries := []

/-- The search loop of `addCashReferenceSummary`, from position `i` on. -/
def searchSummary (aCashReference : CashReference) (aCurrency : Option Currency)
    (aDepositValueType : DepositValueType) (aDepositType : DepositType) :
    List CashReferenceSummary → Nat → Bool → Slot CashReferenceSummary
  | [], _, _ => .atEnd
  | summary :: rest, i, inCashReference =>
    if summary.cashReference = aCashReference then
      if summary.depositType = aDepositType ∧ summary.depositValueType = aDepositValueType ∧
          summary.currency = aCurrency then
        .found i summary
      else searchSummary aCashReference aCurrency aDepositValueType aDepositType rest (i + 1) true
    else if inCashReference then .insertAt i
    else
      searchSummary aCashReference aCurrency aDepositValueType aDepositType rest (i + 1)
        inCashReference

/-- The search loop of `addExtractionDetail`, from position `i` on. -/
def searchDetail (c : ExtractionCall) : List ExtractionDetail → Nat → Bool → Slot ExtractionDetail
  | [], _, _ => .atEnd
  | extractionDetail :: rest, i, inCurrency =>
    if extractionDetail.acceptorSettings ≠ c.acceptorSettings then
      searchDetail c rest (i + 1) inCurrency
    else if extractionDetail.depositValueType ≠ c.depositValueType then
      searchDetail c rest (i + 1) inCurrency
    else if extractionDetail.cimCash ≠ c.cimCash then searchDetail c rest (i + 1) inCurrency
    else if extractionDetail.currency ≠ c.currency ∧ inCurrency then .insertAt i
    else if extractionDetail.currency = c.currency then
      -- a manual cash is totalled per currency, not per denomination
      if isManual c.cimCash then .found i extractionDetail
      else if extractionDetail.amount = c.amount then .found i extractionDetail
      else if extractionDetail.amount > c.amount then .insertAt i
      else searchDetail c rest (i + 1) true
    else searchDetail c rest (i + 1) inCurrency

/-- The detail a call leaves in place of one its search found. -/
def mergeDetail (c : ExtractionCall) (extractionDetail : ExtractionDetail) : ExtractionDetail :=
  if isManual c.cimCash then
    (extractionDetail.setAmount (extractionDetail.amount + c.amount)).addQty c.qty
  else extractionDetail.addQty c.qty

/-- A call as an arrival in the detail list. -/
def detailArrival (c : ExtractionCall) : Arrival ExtractionDetail where
  inGroup d := d.group = c.detail.group
  inSub d := d.currency = c.currency
  cmp d := if isManual c.cimCash then .eq else compare d.amount c.amount
  upd d := mergeDetail c d
  new := c.detail

/-- A summary amount as an arrival in the summary list: one group, the reference
as sub-key, and no order between the lines of a reference. -/
def summaryArrival (summary : CashReferenceSummary) : Arrival CashReferenceSummary where
  inGroup _ := true
  inSub line := line.cashReference = summary.cashReference
  cmp line := if line.key = summary.key then .eq else .lt
  upd line := { line with amount := line.amount + summary.amount }
  new := summary

variable (c : ExtractionCall) (self : Extraction)

/-- The summaries after a call. -/
def addSummary (summaries : List CashReferenceSummary) (c : ExtractionCall) :
    List CashReferenceSummary :=
  match c.summary with
  | some summary => (summaryArrival summary).upsert false summaries
  | none => summaries

section distinct

variable {l : List ExtractionDetail}

end distinct

end Extraction

end CimArm
